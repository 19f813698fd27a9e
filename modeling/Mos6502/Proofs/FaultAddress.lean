import Mos6502.Proofs.InstructionCount
import Mos6502.Proofs.ProfileSample

/-!
# Addresses of flag faults

An unknown flag that an instruction reads is reported at the address of the instruction at work. There is one place for
this address. Every window puts its own there, and when a hook that has executed other windows is left, nothing puts
back that of the instruction whose access came to the hook. So the report names the window that was entered last, by
the machine or in one of the hooks that the instruction has come to so far. Additions, subtractions and rotations read
their flags behind the hooks of their operand; for branches only hooks on their own bytes come before.
-/

namespace Mos6502

variable {σ α β : Type}

/-- The read of a flag: the world in which it happens, and the hooks that the window has come to before. -/
structure FlagRead (σ : Type) where
  flag : Flag
  given : World σ
  earlier : List (Invocation σ)

namespace FlagRead

/-- The flag is unknown, and the slot is free. -/
def reported (read : FlagRead σ) : Bool :=
  read.given.machine.regs.unknown.get read.flag && read.given.machine.slot.fault.isNone

/-- The fault that the slot holds behind the read. -/
def fault (read : FlagRead σ) : Option Fault :=
  (read.given.readFlag read.flag).2.machine.slot.fault

theorem fault_of_reported {read : FlagRead σ} (reported : read.reported = true) :
    read.fault = some ⟨.readUninitialized, read.given.machine.current⟩ := by
  obtain ⟨unknown, free⟩ := Bool.and_eq_true_iff.mp reported
  unfold fault World.readFlag
  dsimp only
  rw [if_pos unknown]
  exact FaultSlot.record_of_none (Option.isNone_iff_eq_none.mp free) _ _

end FlagRead

/-- The flag that a micro-operation reads, if it reads one, when its window has come to some hooks before. -/
def MicroOp.flagRead? (earlier : List (Invocation σ)) : MicroOp → World σ → Option (FlagRead σ)
  | .flag which, w => some ⟨which, w, earlier⟩
  | _, _ => none

namespace Micro

def flagReads (host : Host σ) : Micro α → List (Invocation σ) → World σ → List (FlagRead σ)
  | done _, _, _ => []
  | step op next, earlier, w =>
    (op.flagRead? earlier w).toList ++
      (next (op.perform host w).1).flagReads host (earlier ++ (op.invocation? w).toList)
        (op.perform host w).2

@[simp]
theorem flagReads_step (host : Host σ) (op : MicroOp) (next : op.Answer → Micro α)
    (earlier : List (Invocation σ)) (w : World σ) :
    (step op next).flagReads host earlier w =
      (op.flagRead? earlier w).toList ++
        (next (op.perform host w).1).flagReads host (earlier ++ (op.invocation? w).toList)
          (op.perform host w).2 := rfl

@[simp]
theorem flagReads_bind (host : Host σ) (program : Micro α) (next : α → Micro β)
    (earlier : List (Invocation σ)) (w : World σ) :
    (program >>= next).flagReads host earlier w =
      program.flagReads host earlier w ++
        (next (program.run host w).1).flagReads host (earlier ++ program.invocations host w)
          (program.run host w).2 := by
  induction program generalizing earlier w with
  | done result =>
    rw [bind_done, invocations_done, List.append_nil]
    rfl
  | step op rest inductionHypothesis =>
    simp only [bind_step, flagReads_step, invocations_step, run_step, inductionHypothesis,
      List.append_assoc]

@[simp]
theorem flagReads_flag (host : Host σ) (which : Flag) (earlier : List (Invocation σ)) (w : World σ) :
    (flag which).flagReads host earlier w = [⟨which, w, earlier⟩] := rfl

def Flagless (program : Micro α) : Prop :=
  program.Uses fun op => ∀ which, op ≠ .flag which

theorem Flagless.flagReads_eq_nil (host : Host σ) {program : Micro α} (flagless : program.Flagless)
    (earlier : List (Invocation σ)) (w : World σ) : program.flagReads host earlier w = [] := by
  induction program generalizing earlier w with
  | done result => rfl
  | step op next inductionHypothesis =>
    obtain ⟨other, later⟩ := flagless
    have none : op.flagRead? earlier w = none := by
      cases op with
      | flag which => exact absurd rfl (other which)
      | _ => rfl
    rw [flagReads_step, none]
    exact inductionHypothesis _ (later _) _ _

theorem earlier_prefix_of_mem (host : Host σ) (program : Micro α) (earlier : List (Invocation σ))
    (w : World σ) : ∀ read ∈ program.flagReads host earlier w,
      read.earlier <+: earlier ++ program.invocations host w := by
  induction program generalizing earlier w with
  | done result =>
    intro read member
    cases member
  | step op next inductionHypothesis =>
    intro read member
    rw [flagReads_step] at member
    rcases List.mem_append.mp member with here | later
    · have first : read.earlier = earlier := by
        cases op with
        | flag which => exact congrArg FlagRead.earlier (List.mem_singleton.mp here)
        | _ => cases here
      rw [first]
      exact List.prefix_append _ _
    · rw [invocations_step, ← List.append_assoc]
      exact inductionHypothesis _ _ _ read later

end Micro

namespace Micro

theorem flagless_of_common {program : Micro α} (common : program.Uses MicroOp.Common) :
    program.Flagless := by
  apply common.imp
  rintro op common which rfl
  exact common

theorem flagless_ofMnemonic {mnemonic : Mnemonic} (none : mnemonic.flagsRead = []) (operand : Operand) :
    (ofMnemonic mnemonic operand).Flagless := by
  apply (uses_ofMnemonic mnemonic operand).imp
  rintro op works which rfl
  exact List.ne_nil_of_mem works none

theorem flagless_chargeFor (instruction : Instruction) (operand : Operand) :
    (chargeFor instruction operand).Flagless := by
  simp [Flagless, chargeFor]

theorem flagless_takeBranch (operand : Operand) (taken : Bool) :
    (takeBranch operand taken).Flagless := by
  cases operand <;> simp [Flagless, takeBranch]

section

variable (host : Host σ) (operand : Operand) (earlier : List (Invocation σ)) (w : World σ)

theorem flags_arithmetic (binary decimal : UInt8 → UInt8 → Bool → Alu.Result) :
    ((arithmetic binary decimal operand).flagReads host earlier w).map (·.flag) =
      [.carry, .decimal] := by
  have rest (m : UInt8) (carry decimalMode : Bool) : (do
      let a ← register .a
      let result := if decimalMode then decimal a m carry else binary a m carry
      setRegister .a result.value
      setComparison result
      setFlag .overflow result.overflow
      observe (.overflow result.overflow)).Flagless := by
    simp [Flagless, setComparison]
  unfold arithmetic
  rw [flagReads_bind, (flagless_of_common (common_loadOperand operand)).flagReads_eq_nil, flagReads_bind,
    flagReads_flag, flagReads_bind, flagReads_flag, (rest _ _ _).flagReads_eq_nil]
  rfl

theorem flags_rotate (f : UInt8 → Bool → UInt8 × Bool) :
    ((rotate f operand).flagReads host earlier w).map (·.flag) = [.carry] := by
  unfold rotate modify
  rw [flagReads_bind, (flagless_of_common (common_loadOperand operand)).flagReads_eq_nil, flagReads_bind,
    flagReads_bind, flagReads_flag, (flagless_of_common (common_setShift _)).flagReads_eq_nil,
    (flagless_of_common (common_storeOperand operand _)).flagReads_eq_nil]
  rfl

theorem flags_branchIf (condition : Flag) (value : Bool) :
    ((branchIf condition value operand).flagReads host earlier w).map (·.flag) = [condition] := by
  unfold branchIf
  rw [flagReads_bind, flagReads_flag, (flagless_takeBranch operand _).flagReads_eq_nil]
  rfl

theorem flags_ofMnemonic (mnemonic : Mnemonic) :
    ((ofMnemonic mnemonic operand).flagReads host earlier w).map (·.flag) =
      mnemonic.flagsRead := by
  cases mnemonic with
  | adc | sbc => exact flags_arithmetic host operand earlier w _ _
  | rol | ror => exact flags_rotate host operand earlier w _
  | bcc | bcs | bne | beq | bpl | bmi | bvc | bvs => exact flags_branchIf host operand earlier w _ _
  | _ =>
    rw [(flagless_ofMnemonic rfl operand).flagReads_eq_nil]
    rfl

theorem flags_ofInstruction (instruction : Instruction) (value : UInt16) :
    ((ofInstruction instruction value).flagReads host earlier w).map (·.flag) =
      instruction.mnemonic.flagsRead := by
  by_cases undocumented : instruction.mnemonic = .undocumented
  · unfold ofInstruction
    rw [if_pos undocumented, undocumented]
    rfl
  · rw [ofInstruction_eq undocumented, flagReads_bind,
      (flagless_of_common (common_resolve instruction.mode value)).flagReads_eq_nil, flagReads_bind,
      (flagless_chargeFor instruction _).flagReads_eq_nil]
    exact flags_ofMnemonic host _ _ _ instruction.mnemonic

end

end Micro

namespace World

/-- On the way from `v` to `w` windows at some addresses are entered, and the last of them is at work in the end. -/
def Arrives (entered : List UInt16) (v w : World σ) : Prop :=
  w.machine.current = entered.getLastD v.machine.current

namespace Arrives

variable {u v w v' w' : World σ} {first second : List UInt16}

theorem refl (w : World σ) : Arrives [] w w := rfl

theorem trans (left : Arrives first u v) (right : Arrives second v w) :
    Arrives (first ++ second) u w := by
  have last (origin : UInt16) :
      (first ++ second).getLastD origin = second.getLastD (first.getLastD origin) := by
    simp only [List.getLastD_eq_getLast?, List.getLast?_append]
    cases second.getLast? <;> rfl
  unfold Arrives at left right ⊢
  rw [right, left, last]

theorem congr (arrives : Arrives first v w) (start : v'.machine.current = v.machine.current)
    (finish : w'.machine.current = w.machine.current) : Arrives first v' w' := by
  unfold Arrives
  rw [start, finish]
  exact arrives

end Arrives

end World

/-- A host, with the addresses of the windows that are entered in each of its answers. -/
structure Itinerary (σ : Type) where
  host : Host σ
  entered : (hook : Nat) → (addr : UInt16) → Access → World σ → List UInt16

namespace Itinerary

def through (itinerary : Itinerary σ) (called : List (Invocation σ)) : List UInt16 :=
  called.flatMap fun asked => itinerary.entered asked.hook asked.addr asked.access asked.given

theorem through_append (itinerary : Itinerary σ) (first second : List (Invocation σ)) :
    itinerary.through (first ++ second) = itinerary.through first ++ itinerary.through second :=
  List.flatMap_append

def Exact (itinerary : Itinerary σ) : Prop :=
  ∀ hook addr access (w : World σ),
    w.Arrives (itinerary.entered hook addr access w) (itinerary.host.respond hook addr access w).2

end Itinerary

section

variable {itinerary : Itinerary σ}

theorem World.invocation_arrives (exact : itinerary.Exact) (hook : Nat) (addr : UInt16)
    (access : Access) (w : World σ) :
    w.Arrives (itinerary.through [w.invocation hook addr access])
      ((w.invocation hook addr access).settled itinerary.host) := by
  have answered := exact hook addr access (w.invocation hook addr access).given
  have given : (w.invocation hook addr access).given.machine = w.machine := machine_meter w _
  obtain ⟨_, settled⟩ := (w.invocation hook addr access).exists_settled_eq itinerary.host
  have single : itinerary.through [w.invocation hook addr access] =
      itinerary.entered hook addr access (w.invocation hook addr access).given :=
    List.append_nil _
  rw [single, settled]
  exact answered.congr (congrArg Machine.current given.symm) rfl

theorem MicroOp.arrives (exact : itinerary.Exact) (op : MicroOp) (w : World σ) :
    w.Arrives (itinerary.through (op.invocation? w).toList) (op.perform itinerary.host w).2 := by
  cases invoked : op.invocation? w with
  | none =>
    have performed := op.perform_of_silent itinerary.host invoked
    have kept : (op.effect w.machine).2.current = w.machine.current :=
      Machine.current_eq (op.change_effect w.machine).fixture
    exact (congrArg (·.machine.current) performed).trans kept
  | some asked =>
    rw [op.perform_of_invocation itinerary.host invoked]
    obtain ⟨hook, addr, access, v, -, same, -, rfl⟩ := exists_of_invocation? invoked
    have answered := v.invocation_arrives exact hook addr access
    rcases same with rfl | rfl
    · exact answered
    · exact answered

theorem Micro.arrives (exact : itinerary.Exact) (program : Micro α) (w : World σ) :
    w.Arrives (itinerary.through (program.invocations itinerary.host w))
      (program.run itinerary.host w).2 := by
  induction program generalizing w with
  | done result => exact .refl w
  | step op next inductionHypothesis =>
    have here := op.arrives exact w
    have later := inductionHypothesis (op.perform itinerary.host w).1
      (op.perform itinerary.host w).2
    rw [invocations_step, itinerary.through_append]
    exact here.trans later

/-- When a flag is read, the window that was entered last is at work. -/
theorem Micro.arrives_of_mem_flagReads (exact : itinerary.Exact) (program : Micro α) {start w : World σ}
    {earlier : List (Invocation σ)} (arrived : start.Arrives (itinerary.through earlier) w) :
    ∀ read ∈ program.flagReads itinerary.host earlier w,
      start.Arrives (itinerary.through read.earlier) read.given := by
  -- Carried along: the hooks so far lead from the start of the window to the world that the program has come to.
  induction program generalizing earlier w with
  | done result =>
    intro read member
    cases member
  | step op next inductionHypothesis =>
    intro read member
    rw [flagReads_step] at member
    rcases List.mem_append.mp member with here | later
    · cases op with
      | flag which =>
        rw [List.mem_singleton.mp here]
        exact arrived
      | _ => cases here
    · have performed := arrived.trans (op.arrives exact w)
      rw [← itinerary.through_append] at performed
      exact inductionHypothesis _ performed read later

namespace World

section

variable (host : Host σ) (pc : UInt16) (w : World σ)

def instructionFlagReads : List (FlagRead σ) :=
  (Micro.fetchInstruction pc).flagReads host [] (w.traceInstruction pc) ++
    (w.work host pc).flagReads host (w.fetchInvocations host pc) (w.poised host pc)

def hookFlagReads (hook : Nat) : List (FlagRead σ) :=
  ((w.invocation hook pc .exec).continuation host).flagReads host [w.invocation hook pc .exec]
    ((w.invocation hook pc .exec).settled host)

/-- The flags that a window reads, in order. -/
def windowFlagReads : List (FlagRead σ) :=
  if w.machine.limitReached || w.machine.atSentinel then []
  else
    let pc := w.machine.regs.pc
    match w.machine.mem.hook? .exec pc with
    | some hook => (w.enter pc).hookFlagReads host pc hook
    | none => (w.enter pc).instructionFlagReads host pc

theorem flags_windowFlagReads :
    (w.windowFlagReads host).map (·.flag) = (w.decoded host).flatMap (·.mnemonic.flagsRead) := by
  unfold windowFlagReads decoded
  by_cases ended : (w.machine.limitReached || w.machine.atSentinel) = true
  · rw [if_pos ended, if_pos ended]
    rfl
  · rw [if_neg ended, if_neg ended]
    dsimp only
    cases w.machine.mem.hook? .exec w.machine.regs.pc with
    | some hook =>
      have returns := Micro.flagless_of_common Micro.common_returnFromSubroutine
      have continues : (((w.enter w.machine.regs.pc).invocation hook w.machine.regs.pc
          .exec).continuation host).Flagless := Invocation.continuation_uses host _ returns
      exact congrArg (List.map (·.flag)) (continues.flagReads_eq_nil host _ _)
    | none =>
      dsimp only
      unfold instructionFlagReads work
      rw [(Micro.flagless_of_common (Micro.common_fetchInstruction _)).flagReads_eq_nil, List.nil_append,
        Micro.flags_ofInstruction]
      exact (List.append_nil _).symm

theorem earlier_prefix_of_mem_windowFlagReads :
    ∀ read ∈ w.windowFlagReads host, read.earlier <+: w.windowInvocations host := by
  intro read member
  unfold windowFlagReads at member
  unfold windowInvocations
  by_cases ended : (w.machine.limitReached || w.machine.atSentinel) = true
  · rw [if_pos ended] at member
    cases member
  · rw [if_neg ended] at member ⊢
    dsimp only at member ⊢
    cases bound : w.machine.mem.hook? .exec w.machine.regs.pc with
    | some hook =>
      rw [bound] at member
      exact Micro.earlier_prefix_of_mem host _ _ _ read member
    | none =>
      rw [bound] at member
      rcases List.mem_append.mp member with fetching | working
      · have early := Micro.earlier_prefix_of_mem host _ _ _ read fetching
        exact early.trans (List.prefix_append _ _)
      · exact Micro.earlier_prefix_of_mem host _ _ _ read working

end

/-- The addresses of a window and of those that are entered in its hooks. -/
def windowEntered (itinerary : Itinerary σ) (w : World σ) : List UInt16 :=
  w.machine.regs.pc :: itinerary.through (w.windowInvocations itinerary.host)

theorem poised_arrives (exact : itinerary.Exact) (pc : UInt16) (w : World σ) :
    w.Arrives (itinerary.through (w.fetchInvocations itinerary.host pc))
      (w.poised itinerary.host pc) := by
  have fetched : (w.traceInstruction pc).Arrives
      (itinerary.through (w.fetchInvocations itinerary.host pc)) (w.fetched itinerary.host pc).2 :=
    (Micro.fetchInstruction pc).arrives exact (w.traceInstruction pc)
  apply fetched.congr
  · rw [machine_traceInstruction]
  · obtain ⟨_, poised⟩ := w.exists_poised_eq itinerary.host pc
    rw [poised]

theorem runInstruction_arrives (exact : itinerary.Exact) (pc : UInt16) (w : World σ) :
    w.Arrives
      (itinerary.through (w.fetchInvocations itinerary.host pc ++ w.workInvocations itinerary.host pc))
      (w.runInstruction itinerary.host pc) := by
  have poised := w.poised_arrives exact pc
  have worked : (w.poised itinerary.host pc).Arrives
      (itinerary.through (w.workInvocations itinerary.host pc)) (w.worked itinerary.host pc) :=
    (w.work itinerary.host pc).arrives exact (w.poised itinerary.host pc)
  rw [itinerary.through_append]
  apply (poised.trans worked).congr rfl
  rw [machine_runInstruction]

theorem runHook_arrives (exact : itinerary.Exact) (hook : Nat) (pc : UInt16) (w : World σ) :
    w.Arrives (itinerary.through (w.hookInvocations itinerary.host hook pc))
      (w.runHook itinerary.host hook pc) := by
  have answered := w.invocation_arrives exact hook pc .exec
  have continued := ((w.invocation hook pc .exec).continuation itinerary.host).arrives exact
    ((w.invocation hook pc .exec).settled itinerary.host)
  rw [runHook_eq]
  exact itinerary.through_append [w.invocation hook pc .exec] _ ▸ answered.trans continued

theorem window_arrives (exact : itinerary.Exact) (w : World σ) :
    w.Arrives (w.windowEntered itinerary) (w.window itinerary.host) := by
  -- The window puts its own address in place first, and its hooks overwrite it.
  have entered : w.Arrives [w.machine.regs.pc] (w.enter w.machine.regs.pc) := rfl
  unfold windowEntered windowInvocations
  dsimp only
  by_cases ended : (w.machine.limitReached || w.machine.atSentinel) = true
  · rw [if_pos ended, window_of_ended ended]
    exact entered
  · rw [if_neg ended]
    cases bound : w.machine.mem.hook? .exec w.machine.regs.pc with
    | some hook =>
      rw [window_of_hook ended bound]
      exact entered.trans (runHook_arrives exact hook _ _)
    | none =>
      rw [window_of_no_hook ended bound]
      exact entered.trans (runInstruction_arrives exact _ _)

theorem step_arrives (exact : itinerary.Exact) (w : World σ) :
    w.Arrives (w.windowEntered itinerary) (w.step itinerary.host).2 := by
  refine (window_arrives exact w).congr rfl ?_
  obtain ⟨_, _, settled⟩ := (w.window itinerary.host).exists_settle_eq
  exact congrArg (·.machine.current) settled

theorem steps_arrives (exact : itinerary.Exact) (bound : Nat) (w : World σ) :
    w.Arrives (w.along itinerary.host (windowEntered itinerary) bound)
      (w.steps itinerary.host bound).2 := by
  induction bound generalizing w with
  | zero => exact .refl w
  | succ bound inductionHypothesis =>
    have stepped := step_arrives exact w
    unfold steps along
    generalize w.step itinerary.host = result at stepped ⊢
    rcases result with ⟨_ | fault, v⟩
    · exact stepped.trans (inductionHypothesis v)
    · exact stepped.trans (.refl v)

theorem run_arrives (exact : itinerary.Exact) (bound : Nat) (addr : UInt16) (w : World σ) :
    w.Arrives (w.alongRun itinerary.host (windowEntered itinerary) bound addr)
      (w.run itinerary.host bound addr).2 := by
  have stepped := steps_arrives exact bound ((w.startAt addr).log (.runStarted addr))
  exact stepped.congr rfl (congrArg Machine.current (run_eq_steps itinerary.host bound addr w).2)

/-- The addresses of the windows that are entered in an operation, by the machine and in its hooks. -/
def operationEntered (itinerary : Itinerary σ) (operation : Operation) (w : World σ) : List UInt16 :=
  w.alongOperation itinerary.host
    (fun program v => itinerary.through (program.invocations itinerary.host v))
    (windowEntered itinerary) operation

theorem call_arrives (exact : itinerary.Exact) (bound : Nat) (addr : UInt16) (w : World σ) :
    w.Arrives (w.operationEntered itinerary (.call bound addr))
      (w.call itinerary.host bound addr).2 := by
  have begun := (Micro.pushWord (callSentinel - 1)).arrives exact w.armed
  have ran := run_arrives exact bound addr (w.beginCall itinerary.host)
  exact (begun.trans ran).congr rfl rfl

/-- Behind every operation the window that was entered last is at work. -/
theorem operate_arrives (exact : itinerary.Exact) (operation : Operation) (w : World σ) :
    w.Arrives (w.operationEntered itinerary operation) (w.operate itinerary.host operation).2 := by
  cases operation with
  | step => exact step_arrives exact w
  | run bound addr => exact run_arrives exact bound addr w
  | call bound addr => exact call_arrives exact bound addr w
  | read addr => exact (Micro.load addr).arrives exact w
  | write addr value => exact (Micro.store addr value).arrives exact w
  | push value => exact (Micro.push value).arrives exact w
  | pull => exact Micro.pull.arrives exact w

/-- `Enters addrs v w`: the world `w` comes from `v` by operations, in which windows at some addresses are entered, and by
changes that leave alone which one is at work. The hooks that an operation comes to do such things in turn. -/
inductive Enters : List UInt16 → World σ → World σ → Prop where
  | refl (w : World σ) : Enters [] w w
  | aside {entered : List UInt16} {u v w : World σ} : Enters entered u v →
      w.machine.current = v.machine.current → Enters entered u w
  | operate {entered : List UInt16} {u v : World σ} {inner : Itinerary σ} (operation : Operation) :
      (∀ hook addr access w,
        Enters (inner.entered hook addr access w) w (inner.host.respond hook addr access w).2) →
        Enters entered u v →
          Enters (entered ++ v.operationEntered inner operation) u (v.operate inner.host operation).2

theorem Enters.arrives {entered : List UInt16} {v w : World σ} (enters : Enters entered v w) :
    v.Arrives entered w := by
  -- The hypothesis for the hooks of an operation is that their own itinerary is exact.
  induction enters with
  | refl w => exact .refl w
  | aside _ same inductionHypothesis => exact inductionHypothesis.congr rfl same
  | operate operation _ _ answers inductionHypothesis =>
    exact inductionHypothesis.trans (operate_arrives answers operation _)

theorem current_of_mem_windowFlagReads (exact : itinerary.Exact) (w : World σ) :
    ∀ read ∈ w.windowFlagReads itinerary.host,
      read.given.machine.current = (itinerary.through read.earlier).getLastD w.machine.regs.pc := by
  intro read member
  unfold windowFlagReads at member
  by_cases ended : (w.machine.limitReached || w.machine.atSentinel) = true
  · rw [if_pos ended] at member
    cases member
  · rw [if_neg ended] at member
    dsimp only at member
    cases bound : w.machine.mem.hook? .exec w.machine.regs.pc with
    | some hook =>
      rw [bound] at member
      have answered := (w.enter w.machine.regs.pc).invocation_arrives exact hook w.machine.regs.pc .exec
      exact Micro.arrives_of_mem_flagReads exact _ answered read member
    | none =>
      rw [bound] at member
      rcases List.mem_append.mp member with fetching | working
      · have traced : (w.enter w.machine.regs.pc).Arrives (itinerary.through [])
            ((w.enter w.machine.regs.pc).traceInstruction w.machine.regs.pc) :=
          congrArg Machine.current (machine_traceInstruction _ _)
        exact Micro.arrives_of_mem_flagReads exact _ traced read fetching
      · have poised := (w.enter w.machine.regs.pc).poised_arrives exact w.machine.regs.pc
        exact Micro.arrives_of_mem_flagReads exact _ poised read working

end World

end

/-- Hooks do nothing to the address of the instruction at work but enter windows, and these are the ones claimed. -/
def Itinerary.Faithful (itinerary : Itinerary σ) : Prop :=
  ∀ hook addr access (w : World σ),
    World.Enters (itinerary.entered hook addr access w) w
      (itinerary.host.respond hook addr access w).2

namespace World

/-- A window reads the flags of the instruction that it decodes, each when it has come to the first so many of its hooks.
If the flag is unknown and the slot is free, what is recorded is an uninitialized read at the address of the window
that was entered last, in one of these hooks or, if none was entered there, by the machine. So the faults of a window
name its own address exactly if each time the last window entered in these hooks, if there is any, has the same
address. -/
theorem flag_fault_names_instruction_iff {itinerary : Itinerary σ} (faithful : itinerary.Faithful)
    (w : World σ) :
    (w.windowFlagReads itinerary.host).map (·.flag) =
        (w.decoded itinerary.host).flatMap (·.mnemonic.flagsRead) ∧
      (∀ read ∈ w.windowFlagReads itinerary.host,
        read.earlier <+: w.windowInvocations itinerary.host ∧
          (read.reported = true → read.fault = some
            ⟨.readUninitialized, (itinerary.through read.earlier).getLastD w.machine.regs.pc⟩)) ∧
      ((∀ read ∈ w.windowFlagReads itinerary.host, read.reported = true →
          read.fault = some ⟨.readUninitialized, w.machine.regs.pc⟩) ↔
        ∀ read ∈ w.windowFlagReads itinerary.host, read.reported = true →
          (itinerary.through read.earlier).getLastD w.machine.regs.pc = w.machine.regs.pc) := by
  have exact : itinerary.Exact := fun hook addr access v => (faithful hook addr access v).arrives
  have named : ∀ read ∈ w.windowFlagReads itinerary.host, read.reported = true → read.fault = some
      ⟨.readUninitialized, (itinerary.through read.earlier).getLastD w.machine.regs.pc⟩ := by
    intro read member reported
    rw [FlagRead.fault_of_reported reported, current_of_mem_windowFlagReads exact w read member]
  refine ⟨w.flags_windowFlagReads itinerary.host, ?_, ?_⟩
  · intro read member
    exact ⟨w.earlier_prefix_of_mem_windowFlagReads itinerary.host read member, named read member⟩
  · constructor
    · intro own read member reported
      have both := (named read member reported).symm.trans (own read member reported)
      exact congrArg Fault.addr (Option.some.inj both)
    · intro last read member reported
      rw [named read member reported, last read member reported]

def hooklessItinerary : Itinerary Unit where
  host := hooklessWatch.host
  entered _ _ _ _ := []

/-- Behind each answer of `caller` stand the windows of its call. -/
def callerItinerary : Itinerary Unit where
  host := caller
  entered _ _ _ w := w.operationEntered hooklessItinerary (.call 2 0x0020)

theorem callerItinerary_faithful : callerItinerary.Faithful := by
  have idle (hook : Nat) (addr : UInt16) (access : Access) (v : World Unit) :
      Enters (hooklessItinerary.entered hook addr access v) v
        (hooklessItinerary.host.respond hook addr access v).2 := .refl v
  intro hook addr access w
  have called := Enters.operate (.call 2 0x0020) idle (.refl w)
  dsimp only [callerItinerary, caller]
  exact called

/-- ADC $10, with a carry that nothing has established. -/
def addedCall : World Unit :=
  hookedProgram 0x65 .read

/-- The carry is reported at the sentinel, where the call of the hook has ended. -/
theorem addedCall_names_sentinel :
    (addedCall.window caller).machine.slot.fault = some ⟨.readUninitialized, 0xFFFF⟩ ∧
      ¬∀ read ∈ addedCall.windowFlagReads caller, read.reported = true →
        read.fault = some ⟨.readUninitialized, addedCall.machine.regs.pc⟩ := by
  decide +kernel

theorem addedCall_names_last_entered :
    ∃ read ∈ addedCall.windowFlagReads callerItinerary.host, read.reported = true ∧
      callerItinerary.through read.earlier = [0x0020, 0xFFFF] ∧
      read.fault = some ⟨.readUninitialized, 0xFFFF⟩ := by
  have reached : ∃ read ∈ addedCall.windowFlagReads caller, read.reported = true ∧
      callerItinerary.through read.earlier = [0x0020, 0xFFFF] := by
    decide +kernel
  obtain ⟨read, member, reported, entered⟩ := reached
  obtain ⟨-, named, -⟩ := flag_fault_names_instruction_iff callerItinerary_faithful addedCall
  have fault := (named read member).2 reported
  rw [entered] at fault
  exact ⟨read, member, reported, entered, fault⟩

end World

end Mos6502
