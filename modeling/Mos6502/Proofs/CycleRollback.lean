import Mos6502.Proofs.CycleCounter
import Mos6502.Proofs.Snapshot.Restore
import Mos6502.Proofs.Word

/-!
# Where the cycle counter goes back

Two things happen to the cycle counter: execution charges cycles, and a hook that restores a snapshot puts the captured
count in its place, however often hooks nest. The run or the instruction that has come to the hook goes on from there. So
the count at the end of a stretch of execution is that of the snapshot which was restored last on the way, or the one at
its start if there was none, and what was charged from there on. It is not below that count, unless so much was charged
that the counter has started again at zero.
-/

namespace Mos6502

variable {σ α : Type}

/-- What happens to a cycle counter. -/
inductive Tick where
  | charge (cycles : Nat)
  | restore (count : UInt64)
deriving DecidableEq, Repr

/-- The count that was put into a counter last, and all that was charged from there on. -/
structure Odometer where
  base : UInt64
  charged : Nat := 0
deriving DecidableEq, Repr

namespace Odometer

/-- What the counter shows. -/
def count (odometer : Odometer) : UInt64 :=
  odometer.base + UInt64.ofNat odometer.charged

def tick (odometer : Odometer) : Tick → Odometer
  | .charge cycles => { odometer with charged := odometer.charged + cycles }
  | .restore count => { base := count }

def follow (odometer : Odometer) (ticks : List Tick) : Odometer :=
  ticks.foldl tick odometer

/-- What was charged has not led past the greatest count. -/
def Fits (odometer : Odometer) : Prop :=
  odometer.base.toNat + odometer.charged < bound64

@[simp]
theorem count_mk (count : UInt64) : Odometer.count { base := count } = count :=
  UInt64.add_zero count

theorem count_charge (odometer : Odometer) (cycles : Nat) :
    (odometer.tick (.charge cycles)).count = odometer.count + UInt64.ofNat cycles := by
  unfold tick count
  rw [UInt64.ofNat_add, UInt64.add_assoc]

theorem follow_append (odometer : Odometer) (first second : List Tick) :
    odometer.follow (first ++ second) = (odometer.follow first).follow second :=
  List.foldl_append

theorem Fits.base_le_count {odometer : Odometer} (fits : odometer.Fits) :
    odometer.base ≤ odometer.count := by
  rw [UInt64.le_iff_toNat_le, count, toNat_add_ofNat fits]
  exact Nat.le_add_right _ _

end Odometer

namespace World

/-- On the way from `v` to `w` these things happen to the cycle counter. -/
def Turns (ticks : List Tick) (v w : World σ) : Prop :=
  ∀ odometer : Odometer, odometer.count = v.machine.cycles →
    (odometer.follow ticks).count = w.machine.cycles

namespace Turns

variable {u v w v' w' : World σ} {first second : List Tick}

theorem refl (w : World σ) : Turns [] w w := fun _ shown => shown

theorem charge {cycles : Nat} (charged : w.machine.cycles = v.machine.cycles + UInt64.ofNat cycles) :
    Turns [.charge cycles] v w := by
  intro odometer shown
  rw [charged, ← shown]
  exact odometer.count_charge cycles

theorem restore {count : UInt64} (restored : w.machine.cycles = count) :
    Turns [.restore count] v w := by
  intro odometer _
  rw [restored]
  exact Odometer.count_mk count

theorem trans (left : Turns first u v) (right : Turns second v w) : Turns (first ++ second) u w := by
  intro odometer shown
  rw [odometer.follow_append]
  exact right _ (left odometer shown)

theorem congr (turns : Turns first v w) (start : v'.machine.cycles = v.machine.cycles)
    (finish : w'.machine.cycles = w.machine.cycles) : Turns first v' w' := by
  unfold Turns
  rw [start, finish]
  exact turns

end Turns

end World

/-- A host, with what happens to the cycle counter in each of its answers. -/
structure Clock (σ : Type) where
  host : Host σ
  ticks : (hook : Nat) → (addr : UInt16) → Access → World σ → List Tick

/-- What is claimed of each answer is what happens in it. -/
def Clock.Exact (clock : Clock σ) : Prop :=
  ∀ hook addr access (w : World σ),
    w.Turns (clock.ticks hook addr access w) (clock.host.respond hook addr access w).2

def Invocation.ticks (clock : Clock σ) (asked : Invocation σ) : List Tick :=
  clock.ticks asked.hook asked.addr asked.access asked.given

/-- What a micro-operation charges, or what happens in the hook that it comes to. -/
def MicroOp.ticks (clock : Clock σ) (op : MicroOp) (w : World σ) : List Tick :=
  match op.invocation? w with
  | none => [.charge op.cost]
  | some asked => asked.ticks clock

def Micro.ticks (clock : Clock σ) : Micro α → World σ → List Tick
  | .done _, _ => []
  | .step op next, w =>
    op.ticks clock w ++
      (next (op.perform clock.host w).1).ticks clock (op.perform clock.host w).2

namespace World

section

variable (clock : Clock σ)

def fetchTicks (pc : UInt16) (w : World σ) : List Tick :=
  (Micro.fetchInstruction pc).ticks clock (w.traceInstruction pc)

/-- What happens to the cycle counter in the work of the instruction at an address. -/
def workTicks (pc : UInt16) (w : World σ) : List Tick :=
  (w.work clock.host pc).ticks clock (w.poised clock.host pc)

def hookTicks (hook : Nat) (pc : UInt16) (w : World σ) : List Tick :=
  (w.invocation hook pc .exec).ticks clock ++
    ((w.invocation hook pc .exec).continuation clock.host).ticks clock
      ((w.invocation hook pc .exec).settled clock.host)

def windowTicks (w : World σ) : List Tick :=
  if w.machine.limitReached || w.machine.atSentinel then []
  else
    let pc := w.machine.regs.pc
    match w.machine.mem.hook? .exec pc with
    | some hook => (w.enter pc).hookTicks clock hook pc
    | none => (w.enter pc).fetchTicks clock pc ++ (w.enter pc).workTicks clock pc

/-- What happens to the cycle counter in an operation, in order. -/
def operationTicks (operation : Operation) (w : World σ) : List Tick :=
  w.alongOperation clock.host (fun program => program.ticks clock) (windowTicks clock) operation

end

end World

section

variable {clock : Clock σ}

theorem World.turns_invocation (exact : clock.Exact) (hook : Nat) (addr : UInt16) (access : Access)
    (w : World σ) :
    w.Turns ((w.invocation hook addr access).ticks clock)
      ((w.invocation hook addr access).settled clock.host) := by
  have given : (w.invocation hook addr access).given.machine = w.machine := machine_meter w _
  obtain ⟨_, settled⟩ := (w.invocation hook addr access).exists_settled_eq clock.host
  have answered := exact hook addr access (w.invocation hook addr access).given
  rw [settled]
  exact answered.congr (congrArg Machine.cycles given.symm) rfl

theorem MicroOp.turns (exact : clock.Exact) (op : MicroOp) (w : World σ) :
    w.Turns (op.ticks clock w) (op.perform clock.host w).2 := by
  unfold MicroOp.ticks
  cases invoked : op.invocation? w with
  | none =>
    apply World.Turns.charge
    rw [op.perform_of_silent clock.host invoked]
    exact op.cycles_effect w.machine
  | some asked =>
    rw [op.perform_of_invocation clock.host invoked]
    obtain ⟨hook, addr, access, v, -, same, -, rfl⟩ := exists_of_invocation? invoked
    have answered := v.turns_invocation exact hook addr access
    rcases same with rfl | rfl
    · exact answered
    · exact answered.congr rfl rfl

theorem Micro.turns (exact : clock.Exact) (program : Micro α) (w : World σ) :
    w.Turns (program.ticks clock w) (program.run clock.host w).2 := by
  induction program generalizing w with
  | done result => exact .refl w
  | step op next inductionHypothesis =>
    have here := op.turns exact w
    have later := inductionHypothesis (op.perform clock.host w).1 (op.perform clock.host w).2
    exact here.trans later

namespace World

theorem turns_worked (exact : clock.Exact) (pc : UInt16) (w : World σ) :
    (w.poised clock.host pc).Turns (w.workTicks clock pc) (w.worked clock.host pc) :=
  (w.work clock.host pc).turns exact (w.poised clock.host pc)

theorem turns_runInstruction (exact : clock.Exact) (pc : UInt16) (w : World σ) :
    w.Turns (w.fetchTicks clock pc ++ w.workTicks clock pc) (w.runInstruction clock.host pc) := by
  have fetched : (w.traceInstruction pc).Turns (w.fetchTicks clock pc) (w.fetched clock.host pc).2 :=
    (Micro.fetchInstruction pc).turns exact (w.traceInstruction pc)
  have traced : w.machine.cycles = (w.traceInstruction pc).machine.cycles := by
    rw [machine_traceInstruction]
  have poised : (w.poised clock.host pc).machine.cycles =
      (w.fetched clock.host pc).2.machine.cycles := by
    obtain ⟨_, poised⟩ := w.exists_poised_eq clock.host pc
    rw [poised]
  have recorded : (w.runInstruction clock.host pc).machine.cycles =
      (w.worked clock.host pc).machine.cycles := by
    rw [machine_runInstruction]
  exact (fetched.congr traced poised).trans ((turns_worked exact pc w).congr rfl recorded)

theorem turns_runHook (exact : clock.Exact) (hook : Nat) (pc : UInt16) (w : World σ) :
    w.Turns (w.hookTicks clock hook pc) (w.runHook clock.host hook pc) := by
  have answered := w.turns_invocation exact hook pc .exec
  have continued := ((w.invocation hook pc .exec).continuation clock.host).turns exact
    ((w.invocation hook pc .exec).settled clock.host)
  rw [runHook_eq]
  exact answered.trans continued

theorem turns_window (exact : clock.Exact) (w : World σ) :
    w.Turns (w.windowTicks clock) (w.window clock.host) := by
  unfold windowTicks
  dsimp only
  by_cases ended : (w.machine.limitReached || w.machine.atSentinel) = true
  · rw [if_pos ended, window_of_ended ended]
    exact (Turns.refl w).congr rfl rfl
  · rw [if_neg ended]
    cases bound : w.machine.mem.hook? .exec w.machine.regs.pc with
    | some hook =>
      rw [window_of_hook ended bound]
      exact (turns_runHook exact hook _ (w.enter w.machine.regs.pc)).congr rfl rfl
    | none =>
      rw [window_of_no_hook ended bound]
      exact (turns_runInstruction exact _ (w.enter w.machine.regs.pc)).congr rfl rfl

theorem turns_step (exact : clock.Exact) (w : World σ) :
    w.Turns (w.windowTicks clock) (w.step clock.host).2 := by
  apply (turns_window exact w).congr rfl
  obtain ⟨_, _, settled⟩ := (w.window clock.host).exists_settle_eq
  exact congrArg (·.machine.cycles) settled

theorem turns_steps (exact : clock.Exact) (bound : Nat) (w : World σ) :
    w.Turns (w.along clock.host (windowTicks clock) bound) (w.steps clock.host bound).2 := by
  induction bound generalizing w with
  | zero => exact .refl w
  | succ bound inductionHypothesis =>
    have stepped := turns_step exact w
    unfold steps along
    generalize w.step clock.host = result at stepped ⊢
    rcases result with ⟨_ | fault, v⟩
    · exact stepped.trans (inductionHypothesis v)
    · exact stepped.trans (.refl v)

theorem turns_run (exact : clock.Exact) (bound : Nat) (addr : UInt16) (w : World σ) :
    w.Turns (w.alongRun clock.host (windowTicks clock) bound addr)
      (w.run clock.host bound addr).2 := by
  have stepped := turns_steps exact bound ((w.startAt addr).log (.runStarted addr))
  exact stepped.congr rfl (congrArg Machine.cycles (run_eq_steps clock.host bound addr w).2)

theorem turns_call (exact : clock.Exact) (bound : Nat) (addr : UInt16) (w : World σ) :
    w.Turns (w.operationTicks clock (.call bound addr)) (w.call clock.host bound addr).2 := by
  have begun := (Micro.pushWord (callSentinel - 1)).turns exact w.armed
  have ran := turns_run exact bound addr (w.beginCall clock.host)
  exact (begun.trans ran).congr rfl rfl

/-- To the counter happens in an operation what its microcode charges, and what happens in its hooks. -/
theorem turns_operate (exact : clock.Exact) (operation : Operation) (w : World σ) :
    w.Turns (w.operationTicks clock operation) (w.operate clock.host operation).2 := by
  cases operation with
  | step => exact turns_step exact w
  | run bound addr => exact turns_run exact bound addr w
  | call bound addr => exact turns_call exact bound addr w
  | read addr => exact (Micro.load addr).turns exact w
  | write addr value => exact (Micro.store addr value).turns exact w
  | push value => exact (Micro.push value).turns exact w
  | pull => exact Micro.pull.turns exact w

end World

end

namespace World

/-- `Rewinds ticks v w`: the world `w` comes from `v` by operations, by restoring snapshots, and by changes that leave
the counter alone, and `ticks` is what happens to it. The hooks that an operation comes to do such things in turn. -/
inductive Rewinds : List Tick → World σ → World σ → Prop where
  | refl (w : World σ) : Rewinds [] w w
  | aside {ticks : List Tick} {u v w : World σ} : Rewinds ticks u v →
      w.machine.cycles = v.machine.cycles → Rewinds ticks u w
  | restore {ticks : List Tick} {u v : World σ} (snapshot : Snapshot) : Rewinds ticks u v →
      (v.restore snapshot).1 = .ok () →
        Rewinds (ticks ++ [.restore snapshot.cycles]) u (v.restore snapshot).2
  | operate {ticks : List Tick} {u v : World σ} {inner : Clock σ} (operation : Operation) :
      (∀ hook addr access w,
        Rewinds (inner.ticks hook addr access w) w (inner.host.respond hook addr access w).2) →
        Rewinds ticks u v →
          Rewinds (ticks ++ v.operationTicks inner operation) u (v.operate inner.host operation).2

theorem cycles_restore {snapshot : Snapshot} {w : World σ}
    (succeeds : (w.restore snapshot).1 = .ok ()) :
    (w.restore snapshot).2.machine.cycles = snapshot.cycles := by
  cases passed : snapshot.images w.machine.mem.size with
  | error error =>
    rw [restore_of_error passed] at succeeds
    cases succeeds
  | ok images =>
    rw [restore_of_admits (Snapshot.images_eq_ok_iff.mp passed)]
    rfl

theorem Rewinds.turns {ticks : List Tick} {v w : World σ} (rewinds : Rewinds ticks v w) :
    v.Turns ticks w := by
  -- The hypothesis for the hooks of an operation is that what is claimed of them happens.
  induction rewinds with
  | refl w => exact .refl w
  | aside _ same inductionHypothesis => exact inductionHypothesis.congr rfl same
  | restore snapshot _ succeeds inductionHypothesis =>
    exact inductionHypothesis.trans (.restore (cycles_restore succeeds))
  | operate operation _ _ answers inductionHypothesis =>
    exact inductionHypothesis.trans (turns_operate answers operation _)

end World

/-- Hooks do nothing but operate and restore, and what is claimed of them is what happens to the counter. -/
def Clock.Faithful (clock : Clock σ) : Prop :=
  ∀ hook addr access (w : World σ),
    World.Rewinds (clock.ticks hook addr access w) w (clock.host.respond hook addr access w).2

namespace World

/-- The odometer of a stretch of execution that begins in a world. -/
def odometer (w : World σ) (ticks : List Tick) : Odometer :=
  Odometer.follow { base := w.machine.cycles } ticks

theorem Turns.cycles_eq {ticks : List Tick} {v w : World σ} (turns : v.Turns ticks w) :
    w.machine.cycles = (v.odometer ticks).count :=
  (turns _ (Odometer.count_mk _)).symm

theorem Turns.base_le_cycles {ticks : List Tick} {v w : World σ} (turns : v.Turns ticks w)
    (fits : (v.odometer ticks).Fits) : (v.odometer ticks).base ≤ w.machine.cycles :=
  turns.cycles_eq ▸ fits.base_le_count

/-- Whatever hooks do, the counter ends every operation, a run and a step among them, and the work of an instruction with
the count that was restored last meanwhile, or where it began if none was, and what was charged from there on. So it is
not below that count, unless the charges led past the greatest one. -/
theorem counter_not_below_last_restored {clock : Clock σ} (faithful : clock.Faithful) (w : World σ) :
    (∀ operation,
        (w.operate clock.host operation).2.machine.cycles =
            (w.odometer (w.operationTicks clock operation)).count ∧
          ((w.odometer (w.operationTicks clock operation)).Fits →
            (w.odometer (w.operationTicks clock operation)).base ≤
              (w.operate clock.host operation).2.machine.cycles)) ∧
      ∀ pc,
        (w.worked clock.host pc).machine.cycles =
            ((w.poised clock.host pc).odometer (w.workTicks clock pc)).count ∧
          (((w.poised clock.host pc).odometer (w.workTicks clock pc)).Fits →
            ((w.poised clock.host pc).odometer (w.workTicks clock pc)).base ≤
              (w.worked clock.host pc).machine.cycles) := by
  have exact : clock.Exact := fun hook addr access v => (faithful hook addr access v).turns
  refine ⟨fun operation => ?_, fun pc => ?_⟩
  · have turns := turns_operate exact operation w
    exact ⟨turns.cycles_eq, turns.base_le_cycles⟩
  · have turns := turns_worked exact pc w
    exact ⟨turns.cycles_eq, turns.base_le_cycles⟩

/-- A host whose hooks restore a snapshot. -/
def rewindTo (snapshot : Snapshot) : Clock Unit where
  host.respond _ _ _ w := (.ok 1, (w.restore snapshot).2)
  ticks _ _ _ w :=
    match (w.restore snapshot).1 with
    | .ok () => [.restore snapshot.cycles]
    | .error _ => []

theorem rewindTo_faithful (snapshot : Snapshot) : (rewindTo snapshot).Faithful := by
  intro hook addr access w
  unfold rewindTo
  dsimp only
  split
  next outcome => exact .restore snapshot (.refl w) outcome
  next error outcome =>
    rw [restore_of_not_ok outcome]
    exact .refl w

/-- Two times NOP, LDA $08, and a byte that is no instruction; reading address 0x0008 comes to a hook. -/
def rewoundLoad : World Unit :=
  ((ofSettings { memSize := 9, profile := true } {} ()).mapMem
    (·.declareData 0 [0xEA, 0xEA, 0xA5, 0x08, 0x02])).mapMem
      fun mem => (mem.declareRam 8 1 true).bind .read 8 1 7

/-- Restores what was there between the first two instructions, but for the program counter, which is at the byte that
is no instruction. -/
def rewinder : Clock Unit :=
  rewindTo (.ofMachine "id" "name" {} ((rewoundLoad.step CommandLine.hooklessHost).2.machine.startAt 4))

/-- The load, after two instructions. -/
def poisedLoad : World Unit :=
  ((rewoundLoad.step rewinder.host).2.step rewinder.host).2

/-- A NOP and a byte that is no instruction, two cycles before the counter starts again, with nothing that could restore
a snapshot. -/
def lastCycles : World Unit :=
  let w := (ofSettings { memSize := 2, profile := true } {} ()).mapMem (·.declareData 0 [0xEA, 0x02])
  { w with machine := { w.machine with cycles := 0xFFFFFFFFFFFFFFFE } }

/-- While the load works, its hook takes the counter from four back to two, and nothing is charged from there on. At the
end of its range the counter goes back by itself. -/
theorem poisedLoad_lastCycles_run_backwards :
    (poisedLoad.instruments.profile.isSome = true ∧
      (poisedLoad.run rewinder.host 3 2).1 = .stopped ⟨.illegal, 4⟩ ∧
      ¬poisedLoad.machine.cycles ≤ (poisedLoad.run rewinder.host 3 2).2.machine.cycles ∧
      ¬poisedLoad.machine.cycles ≤ (poisedLoad.step rewinder.host).2.machine.cycles ∧
      ¬(poisedLoad.poised rewinder.host 2).machine.cycles ≤
        (poisedLoad.worked rewinder.host 2).machine.cycles) ∧
    lastCycles.instruments.profile.isSome = true ∧ lastCycles.machine.HookFree ∧
      (lastCycles.run CommandLine.hooklessHost 2 0).1 = .stopped ⟨.illegal, 1⟩ ∧
      ¬lastCycles.machine.cycles ≤
        (lastCycles.run CommandLine.hooklessHost 2 0).2.machine.cycles ∧
      ¬lastCycles.machine.cycles ≤ (lastCycles.step CommandLine.hooklessHost).2.machine.cycles ∧
      ¬(lastCycles.poised CommandLine.hooklessHost 0).machine.cycles ≤
        (lastCycles.worked CommandLine.hooklessHost 0).machine.cycles := by
  have free : lastCycles.machine.HookFree := rfl
  refine ⟨by decide +kernel, by decide +kernel, free, ?_⟩
  decide +kernel

theorem poisedLoad_not_below_restored :
    poisedLoad.odometer (poisedLoad.operationTicks rewinder (.run 3 2)) = { base := 2 } ∧
      2 ≤ (poisedLoad.operate rewinder.host (.run 3 2)).2.machine.cycles := by
  have restored : poisedLoad.odometer (poisedLoad.operationTicks rewinder (.run 3 2)) =
      { base := 2 } := by
    decide +kernel
  have faithful : rewinder.Faithful := rewindTo_faithful _
  have bounded := ((counter_not_below_last_restored faithful poisedLoad).1 (.run 3 2)).2
  rw [restored] at bounded
  have fits : Odometer.Fits { base := 2 } := by
    unfold Odometer.Fits
    decide
  exact ⟨restored, bounded fits⟩

end World

end Mos6502
