import Mos6502.CommandLine.Program
import Mos6502.Proofs.Invocation
import Mos6502.Proofs.Operation
import Mos6502.World.Setup

/-!
# Cycles in the profile

The sample of an instruction holds all cycles that pass while it works. Where a hook that the work comes to calls a
subroutine, the instructions of the subroutine have samples of their own, and the cycles they cost are in both. So the
totals of the profile grow by the cycles that pass and, once more, by those that pass in hooks which instructions come
to in their work. Cycles that pass in hooks while an instruction is fetched, in exec hooks, and in the accesses of the
host itself are attributed once.
-/

namespace Mos6502

variable {σ α : Type}

namespace World

/-- The cycles that pass between two worlds, by their counters. -/
def elapsed (v w : World σ) : UInt64 :=
  w.machine.cycles - v.machine.cycles

/-- On the way from `v` to `w` the profile, if there is one, is attributed `count` cycles. -/
def Attributes (count : UInt64) (v w : World σ) : Prop :=
  ∀ profile, v.instruments.profile = some profile →
    ∃ later, w.instruments.profile = some later ∧
      later.totals.cycles = profile.totals.cycles + count

/-- Some cycles are attributed twice. -/
def Overcounts (overlap : UInt64) (v w : World σ) : Prop :=
  Attributes (v.elapsed w + overlap) v w

namespace Attributes

variable {u v w : World σ} {first second : UInt64}

theorem of_profile_eq (same : w.instruments.profile = v.instruments.profile) : Attributes 0 v w :=
  fun profile on => ⟨profile, same.trans on, (UInt64.add_zero _).symm⟩

theorem refl (w : World σ) : Attributes 0 w w :=
  .of_profile_eq rfl

theorem trans (left : Attributes first u v) (right : Attributes second v w) :
    Attributes (first + second) u w := by
  intro profile on
  obtain ⟨middle, stillOn, grown⟩ := left profile on
  obtain ⟨later, on, grownAgain⟩ := right middle stillOn
  refine ⟨later, on, ?_⟩
  rw [grownAgain, grown, UInt64.add_assoc]

theorem congr {v' w' : World σ} (attributes : Attributes first v w)
    (start : v'.instruments.profile = v.instruments.profile)
    (finish : w'.instruments.profile = w.instruments.profile) : Attributes first v' w' := by
  unfold Attributes
  rw [start, finish]
  exact attributes

end Attributes

theorem elapsed_self (w : World σ) : w.elapsed w = 0 := UInt64.sub_self _

theorem elapsed_trans (u v w : World σ) : u.elapsed w = u.elapsed v + v.elapsed w := by
  unfold elapsed
  grind

theorem elapsed_congr {v w v' w' : World σ} (start : v'.machine.cycles = v.machine.cycles)
    (finish : w'.machine.cycles = w.machine.cycles) : v'.elapsed w' = v.elapsed w := by
  unfold elapsed
  rw [start, finish]

theorem Overcounts.refl (w : World σ) : Overcounts 0 w w := by
  unfold Overcounts
  rw [elapsed_self]
  exact .refl w

theorem Overcounts.trans {u v w : World σ} {first second : UInt64} (left : Overcounts first u v)
    (right : Overcounts second v w) : Overcounts (first + second) u w := by
  have together : u.elapsed w + (first + second) =
      (u.elapsed v + first) + (v.elapsed w + second) := by
    rw [elapsed_trans u v w]
    ac_rfl
  unfold Overcounts
  rw [together]
  exact Attributes.trans left right

end World

/-- A host, with the number of cycles that each of its answers attributes twice. -/
structure Watch (σ : Type) where
  host : Host σ
  overlap : (hook : Nat) → (addr : UInt16) → Access → World σ → UInt64

/-- The cycles that pass while a hook answers. -/
def Invocation.elapsed (host : Host σ) (asked : Invocation σ) : UInt64 :=
  asked.given.elapsed (asked.left host)

def elapsedIn (host : Host σ) : List (Invocation σ) → UInt64
  | [] => 0
  | asked :: rest => asked.elapsed host + elapsedIn host rest

namespace Watch

def overlapIn (watch : Watch σ) : List (Invocation σ) → UInt64
  | [] => 0
  | asked :: rest =>
    watch.overlap asked.hook asked.addr asked.access asked.given + watch.overlapIn rest

/-- The overlap that is claimed of each answer is the actual one. -/
def Tallies (watch : Watch σ) : Prop :=
  ∀ hook addr access (w : World σ),
    w.Overcounts (watch.overlap hook addr access w) (watch.host.respond hook addr access w).2

end Watch

@[simp]
theorem elapsedIn_append (host : Host σ) (first second : List (Invocation σ)) :
    elapsedIn host (first ++ second) = elapsedIn host first + elapsedIn host second := by
  induction first with
  | nil => exact (UInt64.zero_add _).symm
  | cons asked rest ih => rw [List.cons_append, elapsedIn, elapsedIn, ih, UInt64.add_assoc]

@[simp]
theorem Watch.overlapIn_append (watch : Watch σ) (first second : List (Invocation σ)) :
    watch.overlapIn (first ++ second) = watch.overlapIn first + watch.overlapIn second := by
  induction first with
  | nil => exact (UInt64.zero_add _).symm
  | cons asked rest ih => rw [List.cons_append, overlapIn, overlapIn, ih, UInt64.add_assoc]

namespace World

theorem invocation_attributes {watch : Watch σ} (tallies : watch.Tallies) (hook : Nat)
    (addr : UInt16) (access : Access) (w : World σ) :
    w.Attributes
      (elapsedIn watch.host [w.invocation hook addr access] +
        watch.overlapIn [w.invocation hook addr access])
      ((w.invocation hook addr access).settled watch.host) ∧
    w.elapsed ((w.invocation hook addr access).settled watch.host) =
      elapsedIn watch.host [w.invocation hook addr access] := by
  have answered := tallies hook addr access (w.invocation hook addr access).given
  obtain ⟨_, settled⟩ := (w.invocation hook addr access).exists_settled_eq watch.host
  rw [settled]
  have given : (w.invocation hook addr access).given.machine = w.machine := machine_meter w _
  constructor
  · have single : elapsedIn watch.host [w.invocation hook addr access] +
        watch.overlapIn [w.invocation hook addr access] =
          (w.invocation hook addr access).elapsed watch.host +
            watch.overlap hook addr access (w.invocation hook addr access).given := by
      simp [elapsedIn, Watch.overlapIn, invocation]
    rw [single]
    exact Attributes.congr answered (profile_meter w _).symm rfl
  · unfold elapsed
    simp [elapsedIn, Invocation.elapsed, elapsed, given]

end World

section

variable {watch : Watch σ}

theorem MicroOp.attributes (tallies : watch.Tallies) (op : MicroOp) (w : World σ) :
    w.Attributes
        (elapsedIn watch.host (op.invocation? w).toList +
          watch.overlapIn (op.invocation? w).toList)
        (op.perform watch.host w).2 ∧
      w.elapsed (op.perform watch.host w).2 =
        elapsedIn watch.host (op.invocation? w).toList + UInt64.ofNat op.cost := by
  cases invoked : op.invocation? w with
  | none =>
    have performed := op.perform_of_silent watch.host invoked
    obtain ⟨_, _, noted⟩ := op.exists_note_eq w
    have cycles : (op.perform watch.host w).2.machine.cycles =
        w.machine.cycles + UInt64.ofNat op.cost := by
      rw [performed, op.cycles_effect]
    have profile :
        (op.perform watch.host w).2.instruments.profile = w.instruments.profile := by
      rw [performed, noted]
    -- Without a hook nothing is attributed yet: what is charged waits for the sample.
    constructor
    · exact .of_profile_eq profile
    · unfold World.elapsed
      rw [cycles, UInt64.add_comm, UInt64.add_sub_cancel]
      exact (UInt64.zero_add _).symm
  | some asked =>
    have uncharged : op.cost = 0 := by
      cases op with
      | charge => cases invoked
      | _ => rfl
    rw [op.perform_of_invocation watch.host invoked, uncharged]
    obtain ⟨hook, addr, access, v, -, same, -, rfl⟩ := exists_of_invocation? invoked
    obtain ⟨attributes, elapsed⟩ := v.invocation_attributes tallies hook addr access
    have passed := elapsed.trans (UInt64.add_zero _).symm
    rcases same with rfl | rfl
    · exact ⟨attributes, passed⟩
    · exact ⟨attributes.congr rfl rfl, passed⟩

/-- What microcode attributes are the cycles that pass in the hooks it comes to, and those that these attribute
twice. -/
theorem Micro.attributes (tallies : watch.Tallies) (program : Micro α) (w : World σ) :
    w.Attributes
      (elapsedIn watch.host (program.invocations watch.host w) +
        watch.overlapIn (program.invocations watch.host w))
      (program.run watch.host w).2 := by
  induction program generalizing w with
  | done result => exact .refl w
  | step op next inductionHypothesis =>
    have here := (op.attributes tallies w).1
    have later := inductionHypothesis (op.perform watch.host w).1 (op.perform watch.host w).2
    have both := here.trans later
    have rearranged (a b c d : UInt64) : (a + b) + (c + d) = (a + c) + (b + d) := by
      ac_rfl
    rw [invocations_step, elapsedIn_append, Watch.overlapIn_append, rearranged]
    exact both

theorem Micro.elapsed_run (tallies : watch.Tallies) {program : Micro α}
    (free : program.Uses fun op => op.cost = 0) (w : World σ) :
    w.elapsed (program.run watch.host w).2 =
      elapsedIn watch.host (program.invocations watch.host w) := by
  induction program generalizing w with
  | done result => exact w.elapsed_self
  | step op next inductionHypothesis =>
    obtain ⟨here, later⟩ := free
    have elapsed := (op.attributes tallies w).2
    have rest := inductionHypothesis (op.perform watch.host w).1 (later _)
      (op.perform watch.host w).2
    rw [run_step, w.elapsed_trans (op.perform watch.host w).2, elapsed, rest, here,
      invocations_step, elapsedIn_append]
    exact congrArg (· + _) (UInt64.add_zero _)

/-- Microcode that charges no cycles attributes those that pass, and the overlaps of its hooks. -/
theorem Micro.overcounts (tallies : watch.Tallies) (program : Micro α)
    (free : program.Uses fun op => op.cost = 0) (w : World σ) :
    w.Overcounts (watch.overlapIn (program.invocations watch.host w))
      (program.run watch.host w).2 := by
  unfold World.Overcounts
  rw [program.elapsed_run tallies free]
  exact program.attributes tallies w

end

namespace World

/-- The hooks that the instruction of a window comes to in its work; none if the window runs no instruction. -/
def windowWork (host : Host σ) (w : World σ) : List (Invocation σ) :=
  if w.machine.limitReached || w.machine.atSentinel then []
  else
    match w.machine.mem.hook? .exec w.machine.regs.pc with
    | some _ => []
    | none => (w.enter w.machine.regs.pc).workInvocations host w.machine.regs.pc

/-- The cycles that a window attributes twice: all that pass in the hooks of the working instruction, and whatever
these and other hooks attribute twice themselves. -/
def windowOverlap (watch : Watch σ) (w : World σ) : UInt64 :=
  watch.overlapIn (w.windowInvocations watch.host) + elapsedIn watch.host (w.windowWork watch.host)

def stepsOverlap (watch : Watch σ) : Nat → World σ → UInt64
  | 0, _ => 0
  | bound + 1, w =>
    w.windowOverlap watch +
      match w.step watch.host with
      | (some _, _) => 0
      | (none, w) => w.stepsOverlap watch bound

def runOverlap (watch : Watch σ) (bound : Nat) (addr : UInt16) (w : World σ) : UInt64 :=
  ((w.startAt addr).log (.runStarted addr)).stepsOverlap watch bound

def callOverlap (watch : Watch σ) (bound : Nat) (addr : UInt16) (w : World σ) : UInt64 :=
  watch.overlapIn ((Micro.pushWord (callSentinel - 1)).invocations watch.host w.armed) +
    (w.beginCall watch.host).runOverlap watch bound addr

/-- The cycles that an operation attributes twice. -/
def operationOverlap (watch : Watch σ) (operation : Operation) (w : World σ) : UInt64 :=
  match operation with
  | .step => w.windowOverlap watch
  | .run bound addr => w.runOverlap watch bound addr
  | .call bound addr => w.callOverlap watch bound addr
  | .read addr => watch.overlapIn ((Micro.load addr).invocations watch.host w)
  | .write addr value => watch.overlapIn ((Micro.store addr value).invocations watch.host w)
  | .push value => watch.overlapIn ((Micro.push value).invocations watch.host w)
  | .pull => watch.overlapIn (Micro.pull.invocations watch.host w)

section

variable {watch : Watch σ}

theorem Overcounts.congr {overlap : UInt64} {v w v' w' : World σ} (overcounts : Overcounts overlap v w)
    (startCycles : v'.machine.cycles = v.machine.cycles)
    (startProfile : v'.instruments.profile = v.instruments.profile)
    (cycles : w'.machine.cycles = w.machine.cycles)
    (profile : w'.instruments.profile = w.instruments.profile) : Overcounts overlap v' w' := by
  unfold Overcounts
  rw [elapsed_congr startCycles cycles]
  exact Attributes.congr overcounts startProfile profile

theorem profileSample_attributes (pc : UInt16) (sample : Sample) (w : World σ) :
    w.Attributes sample.cycles (w.profileSample pc sample) := by
  intro profile on
  refine ⟨profile.record pc sample, ?_, rfl⟩
  change w.instruments.profile.map (·.record pc sample) = _
  rw [on]
  rfl

/-- An instruction attributes what passes in the hooks of its work, and then, in its sample, all that passes in its
work. -/
theorem runInstruction_overcounts (tallies : watch.Tallies) (pc : UInt16) (w : World σ) :
    w.Overcounts
      (watch.overlapIn (w.fetchInvocations watch.host pc ++ w.workInvocations watch.host pc) +
        elapsedIn watch.host (w.workInvocations watch.host pc))
      (w.runInstruction watch.host pc) := by
  have free : (Micro.fetchInstruction pc).Uses fun op => op.cost = 0 := by
    simp [Micro.fetchInstruction, MicroOp.cost]
  have fetched : (w.traceInstruction pc).Overcounts
      (watch.overlapIn (w.fetchInvocations watch.host pc)) (w.fetched watch.host pc).2 :=
    (Micro.fetchInstruction pc).overcounts tallies free (w.traceInstruction pc)
  have fetching : w.Overcounts (watch.overlapIn (w.fetchInvocations watch.host pc))
      (w.poised watch.host pc) := by
    obtain ⟨_, _, traced⟩ := w.exists_traceInstruction_eq pc
    obtain ⟨_, poised⟩ := w.exists_poised_eq watch.host pc
    rw [traced] at fetched
    rw [poised]
    generalize (w.fetched watch.host pc).2 = v at fetched ⊢
    exact fetched.congr rfl rfl rfl rfl
  have working : (w.poised watch.host pc).Attributes
      (elapsedIn watch.host (w.workInvocations watch.host pc) +
        watch.overlapIn (w.workInvocations watch.host pc)) (w.worked watch.host pc) :=
    (w.work watch.host pc).attributes tallies (w.poised watch.host pc)
  have recording : (w.worked watch.host pc).Attributes
      ((w.poised watch.host pc).elapsed (w.worked watch.host pc))
      (w.runInstruction watch.host pc) := by
    have sampled := profileSample_attributes pc (w.retiredSample watch.host pc)
      ((w.worked watch.host pc).meter
        (·.countInstruction (w.instruction watch.host pc).mnemonic.name))
    rw [runInstruction_eq]
    exact sampled.congr (profile_meter _ _).symm rfl
  have spent : w.elapsed (w.runInstruction watch.host pc) =
      w.elapsed (w.poised watch.host pc) +
        (w.poised watch.host pc).elapsed (w.worked watch.host pc) := by
    rw [← elapsed_trans]
    exact elapsed_congr rfl (congrArg Machine.cycles (w.machine_runInstruction watch.host pc))
  -- What passes in the hooks of the work is attributed by their own samples, and again in this one.
  have total := (Attributes.trans fetching working).trans recording
  have rearranged : w.elapsed (w.runInstruction watch.host pc) +
      (watch.overlapIn (w.fetchInvocations watch.host pc ++ w.workInvocations watch.host pc) +
        elapsedIn watch.host (w.workInvocations watch.host pc)) =
      w.elapsed (w.poised watch.host pc) + watch.overlapIn (w.fetchInvocations watch.host pc) +
        (elapsedIn watch.host (w.workInvocations watch.host pc) +
          watch.overlapIn (w.workInvocations watch.host pc)) +
        (w.poised watch.host pc).elapsed (w.worked watch.host pc) := by
    have reordered (a b c d e : UInt64) : a + e + (b + d + c) = a + b + (c + d) + e := by
      ac_rfl
    rw [spent, Watch.overlapIn_append]
    exact reordered _ _ _ _ _
  unfold Overcounts
  rw [rearranged]
  exact total

theorem runHook_overcounts (tallies : watch.Tallies) (hook : Nat) (pc : UInt16) (w : World σ) :
    w.Overcounts (watch.overlapIn (w.hookInvocations watch.host hook pc))
      (w.runHook watch.host hook pc) := by
  have free : Micro.returnFromSubroutine.Uses fun op => op.cost = 0 := by
    simp [Micro.returnFromSubroutine, Micro.pullWord, Micro.pull, MicroOp.cost]
  obtain ⟨attributes, passed⟩ := w.invocation_attributes tallies hook pc .exec
  rw [← passed] at attributes
  have later := ((w.invocation hook pc .exec).continuation watch.host).overcounts tallies
    ((w.invocation hook pc .exec).continuation_uses watch.host free)
    ((w.invocation hook pc .exec).settled watch.host)
  rw [runHook_eq]
  exact Watch.overlapIn_append watch [w.invocation hook pc .exec] _ ▸ Overcounts.trans attributes later

theorem window_overcounts (tallies : watch.Tallies) (w : World σ) :
    w.Overcounts (w.windowOverlap watch) (w.window watch.host) := by
  unfold windowOverlap windowInvocations windowWork
  dsimp only
  by_cases ended : (w.machine.limitReached || w.machine.atSentinel) = true
  · rw [if_pos ended, if_pos ended, window_of_ended ended]
    exact (Overcounts.refl w).congr rfl rfl rfl rfl
  · rw [if_neg ended, if_neg ended]
    cases bound : w.machine.mem.hook? .exec w.machine.regs.pc with
    | some hook =>
      rw [window_of_hook ended bound]
      dsimp only [elapsedIn]
      rw [UInt64.add_zero]
      exact (runHook_overcounts tallies hook _ _).congr rfl rfl rfl rfl
    | none =>
      rw [window_of_no_hook ended bound]
      exact (runInstruction_overcounts tallies _ _).congr rfl rfl rfl rfl

theorem step_overcounts (tallies : watch.Tallies) (w : World σ) :
    w.Overcounts (w.windowOverlap watch) (w.step watch.host).2 := by
  obtain ⟨_, _, settled⟩ := (w.window watch.host).exists_settle_eq
  exact (window_overcounts tallies w).congr rfl rfl (congrArg (·.machine.cycles) settled)
    (congrArg (·.instruments.profile) settled)

theorem steps_overcounts (tallies : watch.Tallies) (bound : Nat) (w : World σ) :
    w.Overcounts (w.stepsOverlap watch bound) (w.steps watch.host bound).2 := by
  induction bound generalizing w with
  | zero => exact .refl w
  | succ bound inductionHypothesis =>
    have stepped := step_overcounts tallies w
    unfold steps stepsOverlap
    generalize w.step watch.host = result at stepped ⊢
    rcases result with ⟨_ | fault, v⟩
    · exact stepped.trans (inductionHypothesis v)
    · exact stepped.trans (.refl v)

theorem run_overcounts (tallies : watch.Tallies) (bound : Nat) (addr : UInt16) (w : World σ) :
    w.Overcounts (w.runOverlap watch bound addr) (w.run watch.host bound addr).2 := by
  have stepped := steps_overcounts tallies bound ((w.startAt addr).log (.runStarted addr))
  have profile : (w.run watch.host bound addr).2.instruments.profile =
      (((w.startAt addr).log (.runStarted addr)).steps watch.host bound).2.instruments.profile := by
    rcases reached : ((w.startAt addr).log (.runStarted addr)).steps watch.host bound with
      ⟨_ | fault, v⟩
    · rw [run_of_running watch.host reached]
    · rw [run_of_stopped watch.host reached]
      exact profile_meter _ _
  exact stepped.congr rfl rfl (congrArg Machine.cycles (run_eq_steps _ bound addr w).2) profile

theorem call_overcounts (tallies : watch.Tallies) (bound : Nat) (addr : UInt16) (w : World σ) :
    w.Overcounts (w.callOverlap watch bound addr) (w.call watch.host bound addr).2 := by
  have free : (Micro.pushWord (callSentinel - 1)).Uses fun op => op.cost = 0 := by
    simp [Micro.pushWord, Micro.push, MicroOp.cost]
  have begun := (Micro.pushWord (callSentinel - 1)).overcounts tallies free w.armed
  have ran := run_overcounts tallies bound addr (w.beginCall watch.host)
  have both : w.armed.Overcounts (w.callOverlap watch bound addr)
      ((w.beginCall watch.host).run watch.host bound addr).2 :=
    Overcounts.trans begun ran
  exact both.congr rfl rfl rfl rfl

/-- Every operation attributes the cycles that pass, and its overlap. -/
theorem operate_overcounts (tallies : watch.Tallies) (operation : Operation) (w : World σ) :
    w.Overcounts (w.operationOverlap watch operation) (w.operate watch.host operation).2 := by
  cases operation with
  | step => exact step_overcounts tallies w
  | run bound addr => exact run_overcounts tallies bound addr w
  | call bound addr => exact call_overcounts tallies bound addr w
  | read addr =>
    exact (Micro.load addr).overcounts tallies (by simp [MicroOp.cost]) w
  | write addr value =>
    exact (Micro.store addr value).overcounts tallies (by simp [MicroOp.cost]) w
  | push value =>
    exact (Micro.push value).overcounts tallies (by simp [Micro.push, MicroOp.cost]) w
  | pull =>
    exact Micro.pull.overcounts tallies (by simp [Micro.pull, MicroOp.cost]) w

end

/-- `Acts n v w`: the world `w` comes from `v` by operations, which attribute `n` cycles twice, and by changes that leave
the cycle counter and the profile alone. The hooks that an operation comes to do such things in turn. -/
inductive Acts : UInt64 → World σ → World σ → Prop where
  | refl (w : World σ) : Acts 0 w w
  | aside {count : UInt64} {u v w : World σ} : Acts count u v →
      w.machine.cycles = v.machine.cycles → w.instruments.profile = v.instruments.profile →
        Acts count u w
  | operate {count : UInt64} {u v : World σ} {inner : Watch σ} (operation : Operation) :
      (∀ hook addr access w,
        Acts (inner.overlap hook addr access w) w (inner.host.respond hook addr access w).2) →
        Acts count u v →
          Acts (count + v.operationOverlap inner operation) u (v.operate inner.host operation).2

theorem Acts.overcounts {count : UInt64} {v w : World σ} (acts : Acts count v w) :
    v.Overcounts count w := by
  induction acts with
  | refl w => exact .refl w
  | aside _ cycles profile inductionHypothesis => exact inductionHypothesis.congr rfl rfl cycles profile
  | operate operation _ _ answers inductionHypothesis =>
    exact inductionHypothesis.trans (operate_overcounts answers operation _)

end World

/-- Hooks do nothing but operate, and attribute twice what they are said to. -/
def Watch.Faithful (watch : Watch σ) : Prop :=
  ∀ hook addr access (w : World σ),
    World.Acts (watch.overlap hook addr access w) w (watch.host.respond hook addr access w).2

namespace World

/-- While a profile is kept, its total of cycles grows by the cycles that pass and by those that are attributed twice.
So it grows by the cycles that pass exactly if none are attributed twice. All of this is counted in 64 bits. -/
theorem profile_grows_by_elapsed_iff {watch : Watch σ} (faithful : watch.Faithful) {w : World σ}
    {profile : Profile} (on : w.instruments.profile = some profile) (operation : Operation) :
    ∃ later, (w.operate watch.host operation).2.instruments.profile = some later ∧
      later.totals.cycles = profile.totals.cycles + w.elapsed (w.operate watch.host operation).2 +
        w.operationOverlap watch operation ∧
      (later.totals.cycles = profile.totals.cycles + w.elapsed (w.operate watch.host operation).2 ↔
        w.operationOverlap watch operation = 0) := by
  have tallies : watch.Tallies := fun hook addr access v => (faithful hook addr access v).overcounts
  obtain ⟨later, stillOn, grown⟩ := operate_overcounts tallies operation w profile on
  rw [← UInt64.add_assoc] at grown
  refine ⟨later, stillOn, grown, ?_⟩
  rw [grown]
  exact UInt64.add_eq_left

def hooklessWatch : Watch Unit where
  host := CommandLine.hooklessHost
  overlap _ _ _ _ := 0

/-- A host whose hooks call a subroutine at 0x0020. -/
def caller : Host Unit where
  respond _ _ _ w := (.ok 1, (w.operate hooklessWatch.host (.call 2 0x0020)).2)

/-- What the hooks of `caller` attribute twice is what their calls do. -/
def callerWatch : Watch Unit where
  host := caller
  overlap _ _ _ w := w.operationOverlap hooklessWatch (.call 2 0x0020)

theorem callerWatch_faithful : callerWatch.Faithful := by
  have idle (hook : Nat) (addr : UInt16) (access : Access) (v : World Unit) :
      Acts (hooklessWatch.overlap hook addr access v) v
        (hooklessWatch.host.respond hook addr access v).2 := .refl v
  intro hook addr access w
  have called := Acts.operate (.call 2 0x0020) idle (Acts.refl w)
  rw [UInt64.zero_add] at called
  exact called

/-- A program of an instruction on address 0x0010 and a BRK, with a hook at that address, a subroutine of one RTS at
0x0020, a stack of two bytes, and a new profile. -/
def hookedProgram (opcode : UInt8) (kind : AccessKind) : World Unit :=
  ((((ofSettings { memSize := 258, profile := true } {} ()).mapMem
    (·.declareRam 0x0100 2 true)).mapMem (·.declareData 0 [opcode, 0x10, 0x00])).mapMem
      fun mem => (mem.declareData 0x0020 [0x60]).bind kind 0x0010 1 7).mapRegs ({ · with sp := 1 })

/-- LDA $10, BRK. -/
def loadedCall : World Unit :=
  hookedProgram 0xA5 .read

theorem loadedCall_run :
    loadedCall.elapsed (loadedCall.operate caller (.run 3 0)).2 = 16 ∧
      (loadedCall.operate caller (.run 3 0)).2.instruments.profile.map (·.totals.cycles) = some 22 ∧
      loadedCall.instruments.profile.map (·.totals.cycles) = some 0 ∧
      loadedCall.operationOverlap callerWatch (.run 3 0) = 6 := by
  decide +kernel

/-- Six of the cycles, those of the RTS, are in two samples. -/
theorem loadedCall_attributes_twice :
    ∃ profile later, loadedCall.instruments.profile = some profile ∧
      (loadedCall.operate caller (.run 3 0)).2.instruments.profile = some later ∧
      later.totals.cycles ≠
        profile.totals.cycles + loadedCall.elapsed (loadedCall.operate caller (.run 3 0)).2 := by
  obtain ⟨elapsed, total, start, -⟩ := loadedCall_run
  obtain ⟨later, stillOn, total⟩ := Option.map_eq_some_iff.mp total
  obtain ⟨profile, on, start⟩ := Option.map_eq_some_iff.mp start
  refine ⟨profile, later, on, stillOn, ?_⟩
  rw [elapsed, total, start]
  decide

theorem loadedCall_grows_by_overlap :
    ∃ profile later, loadedCall.instruments.profile = some profile ∧
      (loadedCall.operate callerWatch.host (.run 3 0)).2.instruments.profile = some later ∧
      later.totals.cycles = profile.totals.cycles + 16 + 6 := by
  obtain ⟨elapsed, -, start, overlap⟩ := loadedCall_run
  obtain ⟨profile, on, -⟩ := Option.map_eq_some_iff.mp start
  have grows := profile_grows_by_elapsed_iff callerWatch_faithful on (.run 3 0)
  obtain ⟨later, stillOn, grown, -⟩ := grows
  change _ = _ + loadedCall.elapsed (loadedCall.operate caller (.run 3 0)).2 + _ at grown
  rw [overlap, elapsed] at grown
  exact ⟨profile, later, on, stillOn, grown⟩

end World

end Mos6502
