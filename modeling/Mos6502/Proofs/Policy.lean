import Mos6502.CommandLine.Program
import Mos6502.Proofs.Bare.Correspondence
import Mos6502.Proofs.Bare.Unseen
import Mos6502.World.Setup

/-!
# Levels and limits

The level and the limit of a machine are its policy. No micro-operation looks at it: a window compares the cycle
counter with the limit before anything else, and a step looks at the level after everything else. So a policy decides
where a run is cut and has no other influence on the machine.
-/

namespace Mos6502

variable {σ τ α : Type}

namespace ErrorLevel

/-- The levels from the most lenient to the strictest. -/
def rank : ErrorLevel → Nat
  | .none => 0
  | .memory => 1
  | .full => 2

/-- What stops a run at a level stops it at every stricter one. -/
theorem isFatal_of_rank_le {lenient strict : ErrorLevel} (le : lenient.rank ≤ strict.rank)
    {kind : FaultKind} (fatal : lenient.isFatal kind = true) : strict.isFatal kind = true := by
  revert le fatal
  cases lenient <;> cases strict <;> cases kind <;> decide

end ErrorLevel

structure Policy where
  level : ErrorLevel
  limit : UInt64
deriving DecidableEq, Repr

/-- At least as strict a level, and at most the same limit, where zero is no limit. -/
structure Policy.Tighter (tight loose : Policy) : Prop where
  level : loose.level.rank ≤ tight.level.rank
  limit : loose.limit = 0 ∨ (tight.limit ≠ 0 ∧ tight.limit ≤ loose.limit)

namespace Machine

def policy (m : Machine) : Policy where
  level := m.level
  limit := m.limit

/-- The same machine under another policy. -/
def under (policy : Policy) (m : Machine) : Machine :=
  { m with level := policy.level, limit := policy.limit }

/-- Execution does not look at the policy. -/
theorem unseen_under (policy : Policy) : Unseen (under policy) where
  state _ _ := rfl
  raise _ _ _ := rfl
  mark _ _ := rfl
  put _ _ _ := rfl
  regs _ := rfl
  raw _ _ := rfl
  current _ := rfl
  mapRegs _ _ := rfl
  charge _ _ := rfl

end Machine

theorem Micro.exec_under (policy : Policy) (program : Micro α) (m : Machine) :
    program.exec (m.under policy) = ((program.exec m).1, (program.exec m).2.under policy) :=
  exec_unseen (Machine.unseen_under policy) program m

namespace Machine

variable {m : Machine}

/-- A window that neither policy cuts is the same under both. -/
theorem window_under {policy : Policy} (below : m.limitReached = false)
    (belowToo : (m.under policy).limitReached = false) :
    (m.under policy).window = m.window.under policy :=
  window_unseen (unseen_under policy) rfl rfl below belowToo

theorem settle_under (policy : Policy) (m : Machine) :
    (m.under policy).settle =
      (m.slot.fault.filter fun fault => policy.level.isFatal fault.kind,
        m.settle.2.under policy) := rfl

theorem policy_window (m : Machine) : m.window.policy = m.policy := by
  unfold policy
  rw [level_eq m.fixture_window, limit_eq m.fixture_window]
  rfl

theorem limitReached_of_tighter {loose : Policy} (tighter : m.policy.Tighter loose)
    (below : m.limitReached = false) : (m.under loose).limitReached = false := by
  unfold limitReached at below ⊢
  change (loose.limit != 0 && decide (loose.limit ≤ m.cycles)) = false
  rcases tighter.limit with unlimited | ⟨limited, le⟩
  · simp [unlimited]
  · have room : m.cycles < m.limit := by
      simpa [show m.limit ≠ 0 from limited] using below
    have more : ¬loose.limit ≤ m.cycles :=
      UInt64.not_le.mpr (UInt64.lt_of_lt_of_le room le)
    simp [more]

/-- What a step does under a tighter policy, other than to stop at the limit, it does under a looser one. -/
theorem step_of_tighter {loose : Policy} (tighter : m.policy.Tighter loose) (empty : m.slot = {})
    (uncut : ∀ pc, m.step.1 ≠ some ⟨.cycleLimit, pc⟩) :
    (m.under loose).step.2 = m.step.2.under loose ∧
      (m.step.1 = none → (m.under loose).step.1 = none) := by
  -- A window at the limit would have stopped the machine for that reason.
  have below : m.limitReached = false := by
    apply eq_false_of_ne_true
    intro reached
    exact uncut _ (step_fst_of_limitReached empty reached)
  have level : m.window.level = m.level := congrArg Policy.level m.policy_window
  unfold step
  rw [window_under below (limitReached_of_tighter tighter below), settle_under]
  refine ⟨rfl, ?_⟩
  -- What is not fatal at the stricter level is not fatal at the more lenient one.
  intro running
  unfold settle at running
  rw [level, Option.filter_eq_none_iff] at running
  rw [Option.filter_eq_none_iff]
  intro fault held fatal
  exact running fault held (ErrorLevel.isFatal_of_rank_le tighter.level fatal)

theorem policy_step (m : Machine) : m.step.2.policy = m.policy :=
  m.policy_window

theorem policy_steps (m : Machine) (count : Nat) : (m.steps count).2.policy = m.policy :=
  steps_preserves (P := fun n => n.policy = m.policy) (fun {n} same => n.policy_step.trans same) count
    rfl

/-- As long as a run under a tighter policy goes on, it goes on under a looser one, through the same states. -/
theorem steps_of_tighter {loose : Policy} (tighter : m.policy.Tighter loose) (empty : m.slot = {})
    {count : Nat} (running : (m.steps count).1 = none) :
    (m.under loose).steps count = (none, (m.steps count).2.under loose) := by
  induction count generalizing m with
  | zero => rfl
  | succ count inductionHypothesis =>
    cases outcome : m.step.1 with
    | none =>
      rw [steps_succ_of_running outcome] at running ⊢
      have uncut : ∀ pc, m.step.1 ≠ some ⟨.cycleLimit, pc⟩ := by
        simp [outcome]
      obtain ⟨machine, runs⟩ := step_of_tighter tighter empty uncut
      rw [steps_succ_of_running (runs outcome), machine]
      exact inductionHypothesis (m.policy_step.symm ▸ tighter) m.slot_step running
    | some fault =>
      rw [steps_succ_of_stopped outcome, outcome] at running
      exact absurd running (Option.some_ne_none fault)

end Machine

namespace World

/-- Two runs of one machine under two policies, the first of which is the tighter. As long as the first run goes on, so
does the second, and the machines are the same. If the first is then stopped by anything but its limit, the machines
are the same behind that window as well. -/
theorem run_under_looser_policy (host : Host σ) (otherHost : Host τ) {v : World σ} {w : World τ}
    (free : v.machine.HookFree) (empty : v.machine.slot = {})
    (same : w.machine = v.machine.under w.machine.policy)
    (tighter : v.machine.policy.Tighter w.machine.policy) (addr : UInt16) (count : Nat)
    (running : (v.run host count addr).1 = .unfinished) :
    (w.run otherHost count addr).1 = .unfinished ∧
      (w.run otherHost count addr).2.machine =
        (v.run host count addr).2.machine.under w.machine.policy ∧
      ((∀ pc, (v.run host (count + 1) addr).1 ≠ .stopped ⟨.cycleLimit, pc⟩) →
        (w.run otherHost (count + 1) addr).2.machine =
          (v.run host (count + 1) addr).2.machine.under w.machine.policy) := by
  have freeToo : w.machine.HookFree := by
    rw [same]
    exact free
  -- Without hooks, both worlds do what their machines do, and hosts have no part in it.
  generalize w.machine.policy = loose at same tighter
  have started : w.machine.startAt addr = (v.machine.startAt addr).under loose := by
    rw [same]
    rfl
  have tighterThere : (v.machine.startAt addr).policy.Tighter loose := tighter
  have emptyThere : (v.machine.startAt addr).slot = {} := empty
  have ran (bound : Nat) : (v.run host bound addr).2.machine =
      ((v.machine.startAt addr).steps bound).2 := (run_bare host bound addr free).2
  have ranToo (bound : Nat) : (w.run otherHost bound addr).2.machine =
      (((v.machine.startAt addr).under loose).steps bound).2 := by
    rw [← started]
    exact (run_bare otherHost bound addr freeToo).2
  rw [run_eq_unfinished_iff host count addr free] at running
  have along := Machine.steps_of_tighter tighterThere emptyThere running
  refine ⟨?_, ?_, ?_⟩
  · rw [run_eq_unfinished_iff otherHost count addr freeToo, started, along]
  · rw [ranToo, ran, along]
  · intro uncut
    have outcome : (v.run host (count + 1) addr).1 =
        .ofSteps ((v.machine.startAt addr).steps (count + 1)).1 :=
      (run_bare host (count + 1) addr free).1
    have runningToo : (((v.machine.startAt addr).under loose).steps count).1 = none := by
      rw [along]
    rw [Machine.steps_succ_of_steps running] at outcome
    rw [ranToo, ran, Machine.steps_succ_of_steps running, Machine.steps_succ_of_steps runningToo,
      along]
    refine (Machine.step_of_tighter ?_ ?_ ?_).1
    · rw [Machine.policy_steps]
      exact tighterThere
    · exact Machine.slot_steps emptyThere count
    · intro pc stopped
      rw [stopped] at outcome
      exact uncut pc outcome

/-- INX, and a store outside of memory. -/
def strayStore (level : ErrorLevel) (cycleLimit : UInt64) : World Unit :=
  (ofSettings { memSize := 4, level, cycleLimit } {} ()).mapMem (·.declareData 0 [0xE8, 0x85, 0x10])

theorem strayStore_alike_when_lenient :
    ((strayStore .full 100).run CommandLine.hooklessHost 2 0).1 = .stopped ⟨.writeUndefined, 0x10⟩ ∧
      ((strayStore .none 0).run CommandLine.hooklessHost 2 0).1 = .unfinished ∧
      ((strayStore .none 0).run CommandLine.hooklessHost 2 0).2.machine =
        ((strayStore .full 100).run CommandLine.hooklessHost 2 0).2.machine.under ⟨.none, 0⟩ := by
  have running : ((strayStore .full 100).run CommandLine.hooklessHost 1 0).1 = .unfinished := by
    decide +kernel
  have stopped : ((strayStore .full 100).run CommandLine.hooklessHost 2 0).1 =
      .stopped ⟨.writeUndefined, 0x10⟩ := by
    decide +kernel
  have policy (level : ErrorLevel) (limit : UInt64) :
      (strayStore level limit).machine.policy = ⟨level, limit⟩ := rfl
  have tighter : (strayStore .full 100).machine.policy.Tighter (strayStore .none 0).machine.policy :=
    ⟨by decide +kernel, .inl (by decide +kernel)⟩
  have same : (strayStore .none 0).machine =
      (strayStore .full 100).machine.under (strayStore .none 0).machine.policy := by
    decide +kernel
  have free : (strayStore .full 100).machine.HookFree := rfl
  have alike := run_under_looser_policy CommandLine.hooklessHost CommandLine.hooklessHost
    free (by decide +kernel) same tighter 0 1 running
  have two : 1 + 1 = 2 := rfl
  rw [policy, two] at alike
  refine ⟨stopped, by decide +kernel, alike.2.2 ?_⟩
  intro pc cut
  rw [stopped] at cut
  cases cut

end World

end Mos6502
