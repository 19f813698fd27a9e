import Mos6502.Proofs.Invocation
import Mos6502.Proofs.Operation
import Mos6502.Proofs.ProfileCycles
import Mos6502.World.Setup

/-!
# Cycles in the counters

A run counts the cycles that have passed when it ends. So does every run that a hook begins meanwhile, and the cycles
of the outer run include those of the inner one. So a run makes the counter grow by the cycles that pass and, once
more, by all that is counted while its hooks answer.
-/

namespace Mos6502

variable {σ α β : Type}

theorem Outcome.ofFault_ne_unfinished (fault : Fault) :
    ofFault fault ≠ .unfinished := by
  unfold ofFault
  split <;> exact Outcome.noConfusion

/-- Whether counters are kept, and the cycles counted. -/
structure Ledger where
  metered : Bool
  counter : UInt64
deriving DecidableEq, Repr

namespace World

def ledger (w : World σ) : Ledger where
  metered := w.instruments.metered
  counter := w.metrics.cycles

/-- On the way from `v` to `w` counters are kept or not as before, and the cycle counter, if it is kept, grows by
`count`. -/
structure Counts (count : Nat) (v w : World σ) : Prop where
  metered : w.ledger.metered = v.ledger.metered
  counter : v.ledger.metered = true → w.ledger.counter = v.ledger.counter + UInt64.ofNat count

namespace Counts

variable {u v w v' w' : World σ} {first second : Nat}

theorem refl (w : World σ) : Counts 0 w w where
  metered := rfl
  counter _ := (UInt64.add_zero _).symm

theorem trans (left : Counts first u v) (right : Counts second v w) :
    Counts (first + second) u w where
  metered := right.metered.trans left.metered
  counter on := by
    have grown := left.counter on
    have grownAgain := right.counter (left.metered.trans on)
    rw [grownAgain, grown, UInt64.add_assoc, ← UInt64.ofNat_add]

theorem congr (counts : Counts first v w) (start : v'.ledger = v.ledger)
    (finish : w'.ledger = w.ledger) : Counts first v' w' where
  metered := by
    rw [start, finish]
    exact counts.metered
  counter := by
    rw [start, finish]
    exact counts.counter

end Counts

/-- Other counters may change. -/
theorem ledger_meter (change : Metrics → Metrics)
    (keeps : ∀ metrics, (change metrics).cycles = metrics.cycles) (w : World σ) :
    (w.meter change).ledger = w.ledger := by
  rw [meter_eq]
  split
  · exact congrArg (Ledger.mk w.instruments.metered) (keeps w.metrics)
  · rfl

theorem ledger_traceInstruction (pc : UInt16) (w : World σ) :
    (w.traceInstruction pc).ledger = w.ledger := by
  obtain ⟨_, _, traced⟩ := w.exists_traceInstruction_eq pc
  rw [traced]
  rfl

theorem ledger_poised (host : Host σ) (pc : UInt16) (w : World σ) :
    (w.poised host pc).ledger = (w.fetched host pc).2.ledger := by
  obtain ⟨_, poised⟩ := w.exists_poised_eq host pc
  rw [poised]
  generalize (w.fetched host pc).2 = v
  rfl

theorem ledger_runInstruction (host : Host σ) (pc : UInt16) (w : World σ) :
    (w.runInstruction host pc).ledger = (w.worked host pc).ledger := by
  have recorded (v : World σ) (sample : Sample) : (v.profileSample pc sample).ledger = v.ledger := rfl
  rw [runInstruction_eq, recorded]
  exact ledger_meter (·.countInstruction (w.instruction host pc).mnemonic.name) (fun _ => rfl) _

theorem ledger_settle (w : World σ) : w.settle.2.ledger = w.ledger := by
  obtain ⟨_, _, settled⟩ := w.exists_settle_eq
  rw [settled]
  rfl

end World

/-- A host, with a number for each of its answers, such as that of the cycles that are counted meanwhile. -/
structure Tally (σ : Type) where
  host : Host σ
  counted : (hook : Nat) → (addr : UInt16) → Access → World σ → Nat

namespace Tally

/-- The sum over some answers. -/
def sum (tally : Tally σ) : List (Invocation σ) → Nat
  | [] => 0
  | asked :: rest => tally.counted asked.hook asked.addr asked.access asked.given + tally.sum rest

theorem sum_append (tally : Tally σ) (first second : List (Invocation σ)) :
    tally.sum (first ++ second) = tally.sum first + tally.sum second := by
  induction first with
  | nil => exact (Nat.zero_add _).symm
  | cons asked rest inductionHypothesis =>
    rw [List.cons_append, sum, sum, inductionHypothesis, Nat.add_assoc]

/-- The number that is claimed of each answer is the actual one. -/
def Exact (tally : Tally σ) : Prop :=
  ∀ hook addr access (w : World σ),
    w.Counts (tally.counted hook addr access w) (tally.host.respond hook addr access w).2

end Tally

section

variable {tally : Tally σ}

theorem World.invocation_counts (exact : tally.Exact) (hook : Nat) (addr : UInt16) (access : Access)
    (w : World σ) :
    w.Counts (tally.sum [w.invocation hook addr access])
      ((w.invocation hook addr access).settled tally.host) := by
  have given : (w.invocation hook addr access).given.ledger = w.ledger :=
    ledger_meter (·.countCallback access.kind.name) (fun _ => rfl) w
  obtain ⟨_, settled⟩ := (w.invocation hook addr access).exists_settled_eq tally.host
  have answered := exact hook addr access (w.invocation hook addr access).given
  rw [settled]
  exact answered.congr given.symm rfl

theorem MicroOp.counts (exact : tally.Exact) (op : MicroOp) (w : World σ) :
    w.Counts (tally.sum (op.invocation? w).toList) (op.perform tally.host w).2 := by
  -- Only hooks count: without one, the machine goes on and the counters stay.
  cases invoked : op.invocation? w with
  | none =>
    obtain ⟨_, _, noted⟩ := op.exists_note_eq w
    rw [op.perform_of_silent tally.host invoked, noted]
    exact ⟨rfl, fun _ => (UInt64.add_zero _).symm⟩
  | some asked =>
    rw [op.perform_of_invocation tally.host invoked]
    obtain ⟨hook, addr, access, v, -, same, -, rfl⟩ := exists_of_invocation? invoked
    have counts := v.invocation_counts exact hook addr access
    rcases same with rfl | rfl
    · exact counts
    · exact counts.congr rfl rfl

/-- Microcode counts what the hooks it comes to count. -/
theorem Micro.counts (exact : tally.Exact) (program : Micro α) (w : World σ) :
    w.Counts (tally.sum (program.invocations tally.host w)) (program.run tally.host w).2 := by
  induction program generalizing w with
  | done result => exact .refl w
  | step op next inductionHypothesis =>
    have here := op.counts exact w
    have later := inductionHypothesis (op.perform tally.host w).1 (op.perform tally.host w).2
    rw [invocations_step, Tally.sum_append]
    exact here.trans later

namespace World

theorem runInstruction_counts (exact : tally.Exact) (pc : UInt16) (w : World σ) :
    w.Counts
      (tally.sum (w.fetchInvocations tally.host pc ++ w.workInvocations tally.host pc))
      (w.runInstruction tally.host pc) := by
  have fetched : (w.traceInstruction pc).Counts (tally.sum (w.fetchInvocations tally.host pc))
      (w.fetched tally.host pc).2 :=
    (Micro.fetchInstruction pc).counts exact (w.traceInstruction pc)
  have worked : (w.poised tally.host pc).Counts (tally.sum (w.workInvocations tally.host pc))
      (w.worked tally.host pc) :=
    (w.work tally.host pc).counts exact (w.poised tally.host pc)
  have poised := fetched.congr (ledger_traceInstruction pc w).symm (ledger_poised tally.host pc w)
  rw [Tally.sum_append]
  exact poised.trans (worked.congr rfl (ledger_runInstruction tally.host pc w))

theorem runHook_counts (exact : tally.Exact) (hook : Nat) (pc : UInt16) (w : World σ) :
    w.Counts (tally.sum (w.hookInvocations tally.host hook pc)) (w.runHook tally.host hook pc) := by
  have answered := w.invocation_counts exact hook pc .exec
  have continued := ((w.invocation hook pc .exec).continuation tally.host).counts exact
    ((w.invocation hook pc .exec).settled tally.host)
  rw [runHook_eq]
  exact tally.sum_append [w.invocation hook pc .exec] _ ▸ answered.trans continued

theorem window_counts (exact : tally.Exact) (w : World σ) :
    w.Counts (tally.sum (w.windowInvocations tally.host)) (w.window tally.host) := by
  unfold windowInvocations
  dsimp only
  by_cases ended : (w.machine.limitReached || w.machine.atSentinel) = true
  · rw [if_pos ended, window_of_ended ended]
    exact (Counts.refl w).congr rfl rfl
  · rw [if_neg ended]
    cases bound : w.machine.mem.hook? .exec w.machine.regs.pc with
    | some hook =>
      rw [window_of_hook ended bound]
      exact (runHook_counts exact hook _ (w.enter w.machine.regs.pc)).congr rfl rfl
    | none =>
      rw [window_of_no_hook ended bound]
      exact (runInstruction_counts exact _ (w.enter w.machine.regs.pc)).congr rfl rfl

theorem step_counts (exact : tally.Exact) (w : World σ) :
    w.Counts (tally.sum (w.windowInvocations tally.host)) (w.step tally.host).2 :=
  (window_counts exact w).congr rfl (ledger_settle _)

theorem steps_counts (exact : tally.Exact) (bound : Nat) (w : World σ) :
    w.Counts (tally.sum (w.along tally.host (windowInvocations tally.host) bound))
      (w.steps tally.host bound).2 := by
  induction bound generalizing w with
  | zero => exact .refl w
  | succ bound inductionHypothesis =>
    have stepped := step_counts exact w
    unfold steps along
    rw [Tally.sum_append]
    generalize w.step tally.host = result at stepped ⊢
    rcases result with ⟨_ | fault, v⟩
    · exact stepped.trans (inductionHypothesis v)
    · exact stepped

theorem finishRun_counts (start : UInt64) (fault : Fault) (w : World σ) :
    w.Counts (w.machine.cycles - start).toNat (w.finishRun start fault) := by
  unfold finishRun meter
  dsimp only
  split
  next on =>
    refine ⟨rfl, fun _ => ?_⟩
    rw [UInt64.ofNat_toNat]
    rfl
  next off => exact ⟨rfl, fun on => absurd on off⟩

/-- The cycles that a run counts itself: all that have passed, if it ends. -/
def runSpan (host : Host σ) (bound : Nat) (addr : UInt16) (w : World σ) : UInt64 :=
  if (w.run host bound addr).1 = .unfinished then 0 else w.elapsed (w.run host bound addr).2

theorem run_counts (exact : tally.Exact) (bound : Nat) (addr : UInt16) (w : World σ) :
    w.Counts
      (tally.sum (w.alongRun tally.host (windowInvocations tally.host) bound addr) +
        (w.runSpan tally.host bound addr).toNat)
      (w.run tally.host bound addr).2 := by
  have stepped : w.Counts
      (tally.sum (w.alongRun tally.host (windowInvocations tally.host) bound addr))
      (((w.startAt addr).log (.runStarted addr)).steps tally.host bound).2 :=
    (steps_counts exact bound ((w.startAt addr).log (.runStarted addr))).congr rfl rfl
  unfold runSpan
  rcases reached : ((w.startAt addr).log (.runStarted addr)).steps tally.host bound with
    ⟨_ | fault, v⟩
  · rw [reached] at stepped
    rw [run_of_running tally.host reached, if_pos rfl]
    exact stepped
  -- Steps count nothing of their own. It is the end of the run that counts all of its cycles, whoever has taken them.
  · rw [reached] at stepped
    have finished := finishRun_counts w.machine.cycles fault v
    have cycles : (v.finishRun w.machine.cycles fault).machine.cycles = v.machine.cycles :=
      congrArg Machine.cycles (machine_meter v _)
    rw [run_of_stopped tally.host reached, if_neg (Outcome.ofFault_ne_unfinished fault), elapsed,
      cycles]
    exact stepped.trans finished

/-- The hooks that an operation comes to, from outside of any hook. -/
def operationInvocations (host : Host σ) (operation : Operation) (w : World σ) :
    List (Invocation σ) :=
  w.alongOperation host (fun program => program.invocations host) (windowInvocations host) operation

/-- The cycles that the run of an operation counts itself. -/
def operationSpan (host : Host σ) (operation : Operation) (w : World σ) : UInt64 :=
  match operation with
  | .run bound addr => w.runSpan host bound addr
  | .call bound addr => (w.beginCall host).runSpan host bound addr
  | .step | .read _ | .write _ _ | .push _ | .pull => 0

/-- All the cycles that are counted in an operation. -/
def operationCount (tally : Tally σ) (operation : Operation) (w : World σ) : Nat :=
  tally.sum (w.operationInvocations tally.host operation) +
    (w.operationSpan tally.host operation).toNat

theorem call_counts (exact : tally.Exact) (bound : Nat) (addr : UInt16) (w : World σ) :
    w.Counts (w.operationCount tally (.call bound addr)) (w.call tally.host bound addr).2 := by
  have begun := (Micro.pushWord (callSentinel - 1)).counts exact w.armed
  have ran := run_counts exact bound addr (w.beginCall tally.host)
  unfold operationCount operationInvocations alongOperation
  rw [Tally.sum_append, Nat.add_assoc]
  exact (begun.trans ran).congr rfl rfl

/-- Every operation counts the span of its run, and what its hooks count. -/
theorem operate_counts (exact : tally.Exact) (operation : Operation) (w : World σ) :
    w.Counts (w.operationCount tally operation) (w.operate tally.host operation).2 := by
  cases operation with
  | step => exact step_counts exact w
  | run bound addr => exact run_counts exact bound addr w
  | call bound addr => exact call_counts exact bound addr w
  | read addr => exact (Micro.load addr).counts exact w
  | write addr value => exact (Micro.store addr value).counts exact w
  | push value => exact (Micro.push value).counts exact w
  | pull => exact Micro.pull.counts exact w

end World

end

namespace World

/-- `Tallied n v w`: the world `w` comes from `v` by operations, in which `n` cycles are counted, and by changes that
leave the ledger alone. The hooks that an operation comes to do such things in turn. -/
inductive Tallied : Nat → World σ → World σ → Prop where
  | refl (w : World σ) : Tallied 0 w w
  | aside {count : Nat} {u v w : World σ} : Tallied count u v → w.ledger = v.ledger →
      Tallied count u w
  | operate {count : Nat} {u v : World σ} {inner : Tally σ} (operation : Operation) :
      (∀ hook addr access w,
        Tallied (inner.counted hook addr access w) w (inner.host.respond hook addr access w).2) →
        Tallied count u v →
          Tallied (count + v.operationCount inner operation) u (v.operate inner.host operation).2

theorem Tallied.counts {count : Nat} {v w : World σ} (tallied : Tallied count v w) :
    v.Counts count w := by
  -- The hypothesis for the hooks of an operation is that their own tallies are exact.
  induction tallied with
  | refl w => exact .refl w
  | aside _ same inductionHypothesis => exact inductionHypothesis.congr rfl same
  | operate operation _ _ answers inductionHypothesis =>
    exact inductionHypothesis.trans (operate_counts answers operation _)

end World

/-- Hooks do nothing but operate, and count what they are said to. -/
def Tally.Faithful (tally : Tally σ) : Prop :=
  ∀ hook addr access (w : World σ),
    World.Tallied (tally.counted hook addr access w) w (tally.host.respond hook addr access w).2

namespace World

/-- The cycles that pass before the run of an operation begins: those that hooks take while a call pushes its return
address. -/
def prologue (host : Host σ) (operation : Operation) (w : World σ) : UInt64 :=
  match operation with
  | .call _ _ => w.elapsed (w.beginCall host)
  | _ => 0

theorem elapsed_operate (host : Host σ) {w : World σ} {operation : Operation} {outcome : Outcome}
    (ended : (w.operate host operation).1 = .ended outcome) (finished : outcome ≠ .unfinished) :
    w.elapsed (w.operate host operation).2 =
      w.prologue host operation + w.operationSpan host operation := by
  cases operation with
  | run bound addr =>
    have same : (w.run host bound addr).1 = outcome := Reply.ended.inj ended
    unfold operationSpan runSpan
    dsimp only
    rw [same, if_neg finished]
    exact (UInt64.zero_add _).symm
  | call bound addr =>
    have same : ((w.beginCall host).run host bound addr).1 = outcome := Reply.ended.inj ended
    unfold operationSpan runSpan
    dsimp only
    rw [same, if_neg finished]
    exact w.elapsed_trans (w.beginCall host) _
  | step | read | write | push | pull => cases ended

/-- A run or call that ends makes the cycle counter grow by the cycles that pass, except for those before its run
begins, and by all that is counted while its hooks answer. So it grows by the cycles that pass exactly if these two are
the same. All of this is counted in 64 bits. -/
theorem counter_grows_by_elapsed_iff {tally : Tally σ} (faithful : tally.Faithful) {w : World σ}
    (on : w.instruments.metered = true) {operation : Operation} {outcome : Outcome}
    (ended : (w.operate tally.host operation).1 = .ended outcome) (finished : outcome ≠ .unfinished) :
    (w.operate tally.host operation).2.metrics.cycles + w.prologue tally.host operation =
        w.metrics.cycles + w.elapsed (w.operate tally.host operation).2 +
          UInt64.ofNat (tally.sum (w.operationInvocations tally.host operation)) ∧
      ((w.operate tally.host operation).2.metrics.cycles =
          w.metrics.cycles + w.elapsed (w.operate tally.host operation).2 ↔
        UInt64.ofNat (tally.sum (w.operationInvocations tally.host operation)) =
          w.prologue tally.host operation) := by
  have exact : tally.Exact := fun hook addr access v => (faithful hook addr access v).counts
  have counts := operate_counts exact operation w
  have grown : (w.operate tally.host operation).2.metrics.cycles =
      w.metrics.cycles + UInt64.ofNat (w.operationCount tally operation) := counts.counter on
  rw [elapsed_operate tally.host ended finished]
  unfold operationCount at grown
  rw [UInt64.ofNat_add, UInt64.ofNat_toNat] at grown
  refine ⟨?_, ?_⟩
  · rw [grown]
    ac_rfl
  · rw [grown, UInt64.add_right_inj, UInt64.add_left_inj]

/-- What is counted while a hook of `caller` answers is what its call counts. -/
def callerTally : Tally Unit where
  host := caller
  counted _ _ _ w := w.operationCount ⟨hooklessWatch.host, fun _ _ _ _ => 0⟩ (.call 2 0x0020)

theorem callerTally_faithful : callerTally.Faithful := by
  have idle (hook : Nat) (addr : UInt16) (access : Access) (v : World Unit) :
      Tallied 0 v (hooklessWatch.host.respond hook addr access v).2 := .refl v
  intro hook addr access w
  have called := @Tallied.operate Unit 0 w w ⟨hooklessWatch.host, fun _ _ _ _ => 0⟩ (.call 2 0x0020)
    idle (.refl w)
  rw [Nat.zero_add] at called
  dsimp only [callerTally, caller]
  exact called

/-- LDA $10, BRK, with counters. -/
def meteredCall : World Unit :=
  loadedCall.enableMetrics

theorem meteredCall_run :
    meteredCall.instruments.metered = true ∧
      (meteredCall.operate caller (.run 3 0)).1 = .ended (.stopped ⟨.brk, 2⟩) ∧
      meteredCall.elapsed (meteredCall.operate caller (.run 3 0)).2 = 16 ∧
      meteredCall.metrics.cycles = 0 ∧
      (meteredCall.operate caller (.run 3 0)).2.metrics.cycles = 22 ∧
      callerTally.sum (meteredCall.operationInvocations caller (.run 3 0)) = 6 := by
  decide +kernel

/-- Six of the cycles, those of the RTS, are counted twice. -/
theorem meteredCall_counts_twice :
    meteredCall.instruments.metered = true ∧
      (meteredCall.operate caller (.run 3 0)).1 = .ended (.stopped ⟨.brk, 2⟩) ∧
      (meteredCall.operate caller (.run 3 0)).2.metrics.cycles ≠
        meteredCall.metrics.cycles + meteredCall.elapsed (meteredCall.operate caller (.run 3 0)).2 := by
  obtain ⟨on, ended, elapsed, start, total, -⟩ := meteredCall_run
  refine ⟨on, ended, ?_⟩
  rw [elapsed, start, total]
  decide

theorem meteredCall_grows_by_tally :
    (meteredCall.operate callerTally.host (.run 3 0)).2.metrics.cycles + 0 =
      meteredCall.metrics.cycles + 16 + 6 := by
  obtain ⟨on, ended, elapsed, -, -, counted⟩ := meteredCall_run
  have grows := (counter_grows_by_elapsed_iff callerTally_faithful on ended
    Outcome.noConfusion).1
  change _ + _ = _ + meteredCall.elapsed (meteredCall.operate caller (.run 3 0)).2 +
    UInt64.ofNat (callerTally.sum (meteredCall.operationInvocations caller (.run 3 0))) at grows
  rw [elapsed, counted] at grows
  exact grows

end World

end Mos6502
