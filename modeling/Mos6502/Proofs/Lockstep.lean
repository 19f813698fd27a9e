import Mos6502.Proofs.Bare.Correspondence
import Mos6502.Proofs.Microcode

/-!
# Two runs side by side

A relation of machines is kept by execution if every micro-operation keeps it, or else leaves one and the same
fault in the slots of both machines. From then on the runs may go apart within the window: the fault stays in
the slot, and at the level that lets nothing pass both runs stop with it at the end of the window.
-/

namespace Mos6502

variable {σ α : Type}

namespace Machine

/-- Both machines hold the same fault. -/
def ShareFault (m n : Machine) : Prop :=
  ∃ fault, m.slot.fault = some fault ∧ n.slot.fault = some fault

/-- Machines with equal slots share a fault as soon as both record one. -/
theorem shareFault_raise {m n : Machine} (slots : m.slot = n.slot) (kind : FaultKind)
    (addr : UInt16) : (m.raise kind addr).ShareFault (n.raise kind addr) := by
  have recorded : ∃ fault, (m.raise kind addr).slot.fault = some fault := by
    cases held : m.slot.fault with
    | none => exact ⟨_, FaultSlot.record_of_none held kind addr⟩
    | some fault =>
      refine ⟨fault, ?_⟩
      change (m.slot.record kind addr).fault = some fault
      rw [FaultSlot.record_of_some held, held]
  obtain ⟨fault, left⟩ := recorded
  refine ⟨fault, left, ?_⟩
  change (n.slot.record kind addr).fault = some fault
  rw [← slots]
  exact left

theorem ShareFault.exec {m n : Machine} (shared : m.ShareFault n) (first second : Micro α) :
    (first.exec m).2.ShareFault (second.exec n).2 := by
  obtain ⟨fault, left, right⟩ := shared
  exact ⟨fault, first.slot_exec_of_some left, second.slot_exec_of_some right⟩

end Machine

/-- Equal answers with related machines, or a shared fault. -/
def Lockstep (R : Machine → Machine → Prop) (r s : α × Machine) : Prop :=
  (r.1 = s.1 ∧ R r.2 s.2) ∨ r.2.ShareFault s.2

variable {R : Machine → Machine → Prop}

/-- Microcode keeps a relation in lockstep if its micro-operations do. -/
theorem Micro.lockstep_exec {p : MicroOp → Prop}
    (each : ∀ (op : MicroOp) {m n : Machine}, p op → R m n → Lockstep R (op.effect m) (op.effect n))
    {program : Micro α} (uses : program.Uses p) {m n : Machine} (related : R m n) :
    Lockstep R (program.exec m) (program.exec n) := by
  induction program generalizing m n with
  | done result => exact .inl ⟨rfl, related⟩
  | step op next inductionHypothesis =>
    obtain ⟨here, later⟩ := uses
    rcases each op here related with ⟨answers, kept⟩ | shared
    · rw [exec_step, exec_step, ← answers]
      exact inductionHypothesis _ (later _) kept
    · -- The answers may differ, so the rest need not be one program; both slots keep the fault all the same.
      right
      exact shared.exec (next (op.effect m).1) (next (op.effect n).1)

namespace Machine

/-- No hook is bound, and every fault stops execution. -/
structure Strict (m : Machine) : Prop where
  free : m.HookFree
  full : m.level = .full

theorem Strict.step {m : Machine} (strict : m.Strict) : m.step.2.Strict where
  free := hookFree_step strict.free
  full := (level_eq m.fixture_step).trans strict.full

theorem Strict.step_fst {m : Machine} (strict : m.Strict) : m.step.1 = m.window.slot.fault := by
  have full : m.window.level = .full := (level_eq m.fixture_window).trans strict.full
  simp only [Machine.step, settle, full]
  cases m.window.slot.fault with
  | none => rfl
  | some fault => simp [ErrorLevel.isFatal, Option.filter]

end Machine

/-- A relation of machines that go through windows in the same way: they agree in all that decides what a window
does before its first fetch, and the bookkeeping of windows keeps the relation. -/
structure Paired (R : Machine → Machine → Prop) : Prop where
  strict {m n : Machine} : R m n → m.Strict → n.Strict
  pc {m n : Machine} : R m n → m.regs.pc = n.regs.pc
  slot {m n : Machine} : R m n → m.slot = n.slot
  limitReached {m n : Machine} : R m n → m.limitReached = n.limitReached
  atSentinel {m n : Machine} : R m n → m.atSentinel = n.atSentinel
  enter {m n : Machine} (pc : UInt16) : R m n → R (m.enter pc) (n.enter pc)
  settle {m n : Machine} : R m n → R m.settle.2 n.settle.2

namespace Machine

/-- Two steps keep a relation, or both stop with the same fault. -/
def StepAlike (R : Machine → Machine → Prop) (m n : Machine) : Prop :=
  (m.step.1 = none ∧ n.step.1 = none ∧ R m.step.2 n.step.2) ∨
    ∃ fault, m.step.1 = some fault ∧ n.step.1 = some fault

/-- Related strict machines step alike where their instructions run in lockstep. -/
theorem stepAlike_of_lockstep (paired : Paired R) {m n : Machine} (strict : m.Strict)
    (related : R m n)
    (lockstep : m.limitReached = false → m.atSentinel = false →
      Lockstep R ((Micro.instructionAt m.regs.pc).exec (m.enter m.regs.pc))
        ((Micro.instructionAt m.regs.pc).exec (n.enter m.regs.pc))) :
    StepAlike R m n := by
  have entered := paired.enter m.regs.pc related
  have windows : R m.window n.window ∨ m.window.ShareFault n.window := by
    unfold window
    rw [← paired.pc related, ← paired.limitReached related, ← paired.atSentinel related]
    by_cases limit : m.limitReached = true
    · right
      rw [if_pos limit, if_pos limit]
      exact shareFault_raise (paired.slot entered) .cycleLimit m.regs.pc
    · rw [if_neg limit, if_neg limit]
      by_cases sentinel : m.atSentinel = true
      · right
        rw [if_pos sentinel, if_pos sentinel]
        exact shareFault_raise (paired.slot entered) .callReturn m.regs.pc
      · rw [if_neg sentinel, if_neg sentinel]
        rcases lockstep (eq_false_of_ne_true limit) (eq_false_of_ne_true sentinel) with
          ⟨-, kept⟩ | shared
        · exact .inl kept
        · exact .inr shared
  unfold StepAlike
  rw [strict.step_fst, (paired.strict related strict).step_fst]
  rcases windows with kept | shared
  · rw [← paired.slot kept]
    cases m.window.slot.fault with
    | none => exact .inl ⟨rfl, rfl, paired.settle kept⟩
    | some fault => exact .inr ⟨fault, rfl, rfl⟩
  · exact .inr shared

end Machine

namespace World

/-- Two runs of `count` steps keep a relation of their machines, or both have been stopped by the same fault in
the same window. -/
def Together (R : Machine → Machine → Prop) (host : Host σ) (count : Nat) (v w : World σ) :
    Prop :=
  (∃ v' w', v.steps host count = (none, v') ∧ w.steps host count = (none, w') ∧
      R v'.machine w'.machine) ∨
    ∃ before < count, ∃ v' w' fault,
      v.steps host before = (none, v') ∧ w.steps host before = (none, w') ∧
        (v'.step host).1 = some fault ∧ (w'.step host).1 = some fault

theorem steps_eq_of_running {host : Host σ} {count : Nat} {v : World σ}
    (running : (v.steps host count).1 = none) :
    v.steps host count = (none, (v.steps host count).2) :=
  Prod.ext running rfl

theorem steps_succ_eq (host : Host σ) {count : Nat} {v v' : World σ}
    (reached : v.steps host count = (none, v')) :
    v.steps host (count + 1) = v'.step host := by
  induction count generalizing v with
  | zero =>
    have same : v = v' := congrArg Prod.snd reached
    rw [← same]
    unfold steps
    rcases v.step host with ⟨_ | fault, after⟩
    · rfl
    · rfl
  | succ count inductionHypothesis =>
    rw [steps] at reached ⊢
    rcases outcome : v.step host with ⟨_ | fault, after⟩
    · rw [outcome] at reached
      exact inductionHypothesis reached
    · rw [outcome] at reached
      exact absurd (congrArg Prod.fst reached) (Option.some_ne_none fault)

theorem steps_add_of_running (host : Host σ) {first : Nat} {v v' : World σ}
    (reached : v.steps host first = (none, v')) (second : Nat) :
    v.steps host (first + second) = v'.steps host second := by
  induction first generalizing v with
  | zero =>
    rw [Nat.zero_add]
    exact congrArg (fun result : Option Fault × World σ => result.2.steps host second) reached
  | succ first inductionHypothesis =>
    rw [Nat.succ_add]
    rw [steps] at reached ⊢
    rcases outcome : v.step host with ⟨_ | fault, after⟩
    · rw [outcome] at reached
      exact inductionHypothesis reached
    · rw [outcome] at reached
      exact absurd (congrArg Prod.fst reached) (Option.some_ne_none fault)

theorem steps_add_of_stopped (host : Host σ) {first : Nat} {v : World σ} {fault : Fault}
    (stopped : (v.steps host first).1 = some fault) (second : Nat) :
    v.steps host (first + second) = v.steps host first := by
  induction first generalizing v with
  | zero => exact absurd stopped (Option.some_ne_none fault).symm
  | succ first inductionHypothesis =>
    rw [Nat.succ_add]
    rw [steps] at stopped
    rw [steps, steps]
    generalize v.step host = result at stopped
    obtain ⟨_ | other, after⟩ := result
    · exact inductionHypothesis stopped
    · rfl

/-- No step before a world that is still running has stopped. -/
theorem step_of_running (host : Host σ) {before count : Nat} {v v' x : World σ}
    (running : v.steps host count = (none, v')) (earlier : before < count)
    (reached : v.steps host before = (none, x)) : (x.step host).1 = none := by
  have next := steps_succ_eq host reached
  cases outcome : (x.step host).1 with
  | none => rfl
  | some fault =>
    rw [← next] at outcome
    obtain ⟨rest, rfl⟩ := Nat.exists_eq_add_of_lt earlier
    have still := steps_add_of_stopped host outcome rest
    rw [Nat.add_right_comm, running] at still
    rw [← still] at outcome
    exact absurd outcome (Option.some_ne_none fault).symm

theorem strict_of_steps (host : Host σ) {count : Nat} {v v' : World σ}
    (strict : v.machine.Strict) (reached : v.steps host count = (none, v')) :
    v'.machine.Strict := by
  have machine : v'.machine = (v.machine.steps count).2 := by
    rw [← (v.steps_bare host count strict.free).2, reached]
  rw [machine]
  exact Machine.steps_preserves (P := Machine.Strict) Machine.Strict.step count strict

/-- Runs stay together as long as the machines that they reach step alike. -/
theorem together_of_stepAlike (paired : Paired R) (host : Host σ) {v w : World σ}
    (strict : v.machine.Strict) (related : R v.machine w.machine)
    (alike : ∀ count v' w', v.steps host count = (none, v') → w.steps host count = (none, w') →
      v'.machine.Strict → R v'.machine w'.machine → Machine.StepAlike R v'.machine w'.machine)
    (count : Nat) : Together R host count v w := by
  induction count with
  | zero => exact .inl ⟨v, w, rfl, rfl, related⟩
  | succ count inductionHypothesis =>
    rcases inductionHypothesis with
      ⟨v', w', left, right, kept⟩ | ⟨before, earlier, v', w', fault, left, right, stopped⟩
    · have strictLeft := strict_of_steps host strict left
      have strictRight := paired.strict kept strictLeft
      obtain ⟨outcomeLeft, machineLeft⟩ := v'.step_bare host strictLeft.free
      obtain ⟨outcomeRight, machineRight⟩ := w'.step_bare host strictRight.free
      rcases alike count v' w' left right strictLeft kept with
        ⟨runningLeft, runningRight, keptOn⟩ | ⟨fault, stoppedLeft, stoppedRight⟩
      · left
        rw [← outcomeLeft] at runningLeft
        rw [← outcomeRight] at runningRight
        rw [← machineLeft, ← machineRight] at keptOn
        refine ⟨(v'.step host).2, (w'.step host).2, ?_, ?_, keptOn⟩
        · rw [steps_succ_eq host left]
          exact Prod.ext runningLeft rfl
        · rw [steps_succ_eq host right]
          exact Prod.ext runningRight rfl
      · right
        rw [← outcomeLeft] at stoppedLeft
        rw [← outcomeRight] at stoppedRight
        exact ⟨count, Nat.lt_succ_self count, v', w', fault, left, right, stoppedLeft,
          stoppedRight⟩
    · -- What has stopped both runs has done so for every larger count.
      exact .inr ⟨before, Nat.lt_succ_of_lt earlier, v', w', fault, left, right, stopped⟩

/-- Runs that stay together reach related machines that step alike. -/
theorem stepAlike_of_together (paired : Paired R) (host : Host σ) {v w : World σ}
    (strict : v.machine.Strict) (together : ∀ count, Together R host count v w) {count : Nat}
    {v' w' : World σ} (left : v.steps host count = (none, v'))
    (right : w.steps host count = (none, w')) :
    R v'.machine w'.machine ∧ Machine.StepAlike R v'.machine w'.machine := by
  have strictLeft := strict_of_steps host strict left
  have related : R v'.machine w'.machine := by
    rcases together count with
      ⟨x, y, leftAgain, rightAgain, related⟩ |
        ⟨before, earlier, x, y, fault, leftBefore, rightBefore, stopped, -⟩
    · have sameLeft : v' = x := congrArg Prod.snd (left.symm.trans leftAgain)
      have sameRight : w' = y := congrArg Prod.snd (right.symm.trans rightAgain)
      rw [sameLeft, sameRight]
      exact related
    · rw [step_of_running host left earlier leftBefore] at stopped
      exact absurd stopped (Option.some_ne_none fault).symm
  refine ⟨related, ?_⟩
  have strictRight := paired.strict related strictLeft
  obtain ⟨outcomeLeft, machineLeft⟩ := v'.step_bare host strictLeft.free
  obtain ⟨outcomeRight, machineRight⟩ := w'.step_bare host strictRight.free
  rcases together (count + 1) with
    ⟨x, y, leftNext, rightNext, kept⟩ |
      ⟨before, earlier, x, y, fault, leftBefore, rightBefore, stoppedLeft, stoppedRight⟩
  · left
    rw [steps_succ_eq host left] at leftNext
    rw [steps_succ_eq host right] at rightNext
    rw [leftNext] at outcomeLeft machineLeft
    rw [rightNext] at outcomeRight machineRight
    exact ⟨outcomeLeft.symm, outcomeRight.symm, machineLeft ▸ machineRight ▸ kept⟩
  · rcases Nat.lt_succ_iff_lt_or_eq.mp earlier with before | now
    · rw [step_of_running host left before leftBefore] at stoppedLeft
      exact absurd stoppedLeft (Option.some_ne_none fault).symm
    · right
      subst now
      have sameLeft : v' = x := congrArg Prod.snd (left.symm.trans leftBefore)
      have sameRight : w' = y := congrArg Prod.snd (right.symm.trans rightBefore)
      rw [← sameLeft, outcomeLeft] at stoppedLeft
      rw [← sameRight, outcomeRight] at stoppedRight
      exact ⟨fault, stoppedLeft, stoppedRight⟩

end World

end Mos6502
