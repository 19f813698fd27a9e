import Mos6502.CommandLine.Program
import Mos6502.Proofs.Bare.Operation
import Mos6502.Proofs.Invocation
import Mos6502.Proofs.ProfileFile
import Mos6502.World.Setup

/-!
# Profiles add up

Without hooks, nothing looks at the profile. So the instructions that a machine executes, and their samples, are the
same whatever the profile holds, and what a profile has held before stays in it as a summand. Since a profile is read
back from its file as it was written, a later run may go on with it, on the same machine or another one.
-/

namespace Mos6502

variable {σ τ α β : Type}

instance : Add CellProfile where
  add left right :=
    { cycles := left.cycles + right.cycles
      branches := left.branches + right.branches
      extra := left.extra + right.extra
      noEffect := left.noEffect + right.noEffect }

instance : Add ProfileTotals where
  add left right :=
    { instructions := left.instructions + right.instructions
      cycles := left.cycles + right.cycles
      branchesTaken := left.branchesTaken + right.branchesTaken
      branchesNotTaken := left.branchesNotTaken + right.branchesNotTaken
      branchPageCross := left.branchPageCross + right.branchPageCross
      indexPageCross := left.indexPageCross + right.indexPageCross
      arithOverflow := left.arithOverflow + right.arithOverflow
      noEffect := left.noEffect + right.noEffect }

/-- The sum of two profiles of one size, counter by counter. -/
instance : Add Profile where
  add left right :=
    { cells := Array.zipWith (· + ·) left.cells right.cells
      totals := left.totals + right.totals }

theorem CellProfile.add_add (base cell : CellProfile) (sample : Sample) :
    base + cell.add sample = (base + cell).add sample := by
  change CellProfile.mk _ _ _ _ = CellProfile.mk _ _ _ _
  congr 1
  all_goals exact (UInt64.add_assoc _ _ _).symm

theorem CellProfile.add_zero (base : CellProfile) : base + {} = base := by
  change CellProfile.mk _ _ _ _ = base
  simp only [UInt64.add_zero]

theorem ProfileTotals.add_add (base totals : ProfileTotals) (sample : Sample) :
    base + totals.add sample = (base + totals).add sample := by
  change ProfileTotals.mk _ _ _ _ _ _ _ _ = ProfileTotals.mk _ _ _ _ _ _ _ _
  congr 1
  all_goals exact (UInt64.add_assoc _ _ _).symm

theorem ProfileTotals.add_zero (base : ProfileTotals) : base + {} = base := by
  change ProfileTotals.mk _ _ _ _ _ _ _ _ = base
  simp only [UInt64.add_zero]

namespace Profile

theorem cells_add (left right : Profile) :
    (left + right).cells = Array.zipWith (· + ·) left.cells right.cells := rfl

theorem size_new (size : Nat) : (new size).size = size :=
  Array.size_replicate

theorem size_add (left right : Profile) : (left + right).size = min left.size right.size :=
  Array.size_zipWith

theorem size_record (profile : Profile) (addr : UInt16) (sample : Sample) :
    (profile.record addr sample).size = profile.size :=
  Array.size_modify

/-- A sample is added to the counters of its address. -/
theorem cell_record {profile : Profile} {addr : UInt16} (inside : addr.toNat < profile.size)
    (sample : Sample) : (profile.record addr sample).cell addr = (profile.cell addr).add sample := by
  unfold size at inside
  unfold cell record
  simp only [Array.getD_eq_getD_getElem?, Array.getElem?_modify, if_true,
    Array.getElem?_eq_getElem inside, Option.map_some, Option.getD_some]

theorem decodeFor_eq_ok_iff {size : Nat} {bytes : List UInt8} {profile : Profile} :
    decodeFor size bytes = .ok profile ↔ decode bytes = .ok profile ∧ profile.size = size := by
  unfold decodeFor
  cases read : decode bytes with
  | error error =>
    constructor
    · rintro ⟨⟩
    · rintro ⟨⟨⟩, -⟩
  | ok found =>
    change (if found.size = size then Except.ok found else _) = .ok profile ↔ _
    constructor
    · intro decoded
      split at decoded
      next fits =>
        cases decoded
        exact ⟨rfl, fits⟩
      next unfit => cases decoded
    · rintro ⟨⟨⟩, fits⟩
      exact if_pos fits

/-- A sum of profiles of one size is a sum at every address. -/
theorem cell_add {left right : Profile} (same : left.size = right.size) (addr : UInt16) :
    (left + right).cell addr = left.cell addr + right.cell addr := by
  unfold size at same
  unfold cell
  rw [cells_add]
  simp only [Array.getD_eq_getD_getElem?, Array.getElem?_zipWith]
  by_cases inside : addr.toNat < left.cells.size
  · have insideToo : addr.toNat < right.cells.size := same ▸ inside
    rw [Array.getElem?_eq_getElem inside, Array.getElem?_eq_getElem insideToo]
    rfl
  · have outside : ¬addr.toNat < right.cells.size := same ▸ inside
    rw [Array.getElem?_eq_none (Nat.le_of_not_lt inside),
      Array.getElem?_eq_none (Nat.le_of_not_lt outside)]
    rfl

/-- Recording goes into one summand. -/
theorem add_record (base profile : Profile) (addr : UInt16) (sample : Sample) :
    base + profile.record addr sample = (base + profile).record addr sample := by
  have cells : (base + profile.record addr sample).cells =
      ((base + profile).record addr sample).cells := by
    apply Array.ext_getElem?
    intro index
    simp only [cells_add, record, Array.getElem?_zipWith, Array.getElem?_modify]
    by_cases here : addr.toNat = index
    · simp only [if_pos here]
      cases base.cells[index]? with
      | none => rfl
      | some before =>
        cases profile.cells[index]? with
        | none => rfl
        | some cell => exact congrArg some (CellProfile.add_add before cell sample)
    · simp only [if_neg here]
  have totals : (base + profile.record addr sample).totals =
      ((base + profile).record addr sample).totals :=
    ProfileTotals.add_add base.totals profile.totals sample
  exact congr (congrArg Profile.mk cells) totals

/-- A new profile adds nothing. -/
theorem add_new (base : Profile) : base + new base.size = base := by
  have cells : (base + new base.size).cells = base.cells := by
    apply Array.ext_getElem?
    intro index
    rw [cells_add, new, Array.getElem?_zipWith, Array.getElem?_replicate]
    by_cases inside : index < base.size
    · rw [if_pos inside, Array.getElem?_eq_getElem inside]
      exact congrArg some (CellProfile.add_zero _)
    · rw [if_neg inside, Array.getElem?_eq_none (Nat.le_of_not_lt inside)]
  exact congr (congrArg Profile.mk cells) (ProfileTotals.add_zero base.totals)

/-- A profile with the samples of some instructions. -/
def recordAll (samples : List (UInt16 × Sample)) (profile : Profile) : Profile :=
  samples.foldl (fun profile (addr, sample) => profile.record addr sample) profile

theorem recordAll_append (first second : List (UInt16 × Sample)) (profile : Profile) :
    profile.recordAll (first ++ second) = (profile.recordAll first).recordAll second :=
  List.foldl_append

theorem size_recordAll (samples : List (UInt16 × Sample)) (profile : Profile) :
    (profile.recordAll samples).size = profile.size := by
  induction samples generalizing profile with
  | nil => rfl
  | cons entry samples inductionHypothesis =>
    exact (inductionHypothesis _).trans (profile.size_record entry.1 entry.2)

theorem add_recordAll (base profile : Profile) (samples : List (UInt16 × Sample)) :
    base + profile.recordAll samples = (base + profile).recordAll samples := by
  induction samples generalizing profile with
  | nil => rfl
  | cons entry samples inductionHypothesis =>
    change base + (profile.record entry.1 entry.2).recordAll samples =
      ((base + profile).record entry.1 entry.2).recordAll samples
    rw [inductionHypothesis, add_record]

/-- What is recorded on top of a profile is added to it. -/
theorem recordAll_eq_add (samples : List (UInt16 × Sample)) (base : Profile) :
    base.recordAll samples = base + (new base.size).recordAll samples := by
  rw [add_recordAll, add_new]

end Profile

namespace World

def withProfile (profile : Profile) (w : World σ) : World σ :=
  { w with instruments := { w.instruments with profile := some profile } }

/-- Whatever the profile holds, an act gives the same, leaves the same, and records the same samples. -/
def Accrues (act : World σ → α × World σ) (w : World σ) : Prop :=
  ∃ (answer : α) (v : World σ) (samples : List (UInt16 × Sample)), v.machine.HookFree ∧
    ∀ profile, act (w.withProfile profile) = (answer, v.withProfile (profile.recordAll samples))

namespace Accrues

variable {act : World σ → α × World σ} {w : World σ}

/-- An act that leaves the profile alone. -/
theorem of_silent (answer : α) (v : World σ) (free : v.machine.HookFree)
    (same : ∀ profile, act (w.withProfile profile) = (answer, v.withProfile profile)) :
    Accrues act w :=
  ⟨answer, v, [], free, same⟩

theorem bind {next : α → World σ → β × World σ} (first : Accrues act w)
    (second : ∀ answer v, v.machine.HookFree → Accrues (next answer) v) :
    Accrues (fun w => next (act w).1 (act w).2) w := by
  obtain ⟨answer, u, samples, free, acted⟩ := first
  obtain ⟨reply, v, later, stillFree, replied⟩ := second answer u free
  refine ⟨reply, v, samples ++ later, stillFree, ?_⟩
  intro profile
  dsimp only
  rw [acted, Profile.recordAll_append]
  exact replied _

theorem map (accrues : Accrues act w) (f : α → β) : Accrues (fun w => (act w).map f id) w := by
  obtain ⟨answer, v, samples, free, acted⟩ := accrues
  refine ⟨f answer, v, samples, free, ?_⟩
  intro profile
  dsimp only
  rw [acted]
  rfl

end Accrues

end World

theorem MicroOp.invocation?_of_hookFree {w : World σ} (free : w.machine.HookFree) (op : MicroOp) :
    op.invocation? w = none := by
  cases invoked : op.invocation? w with
  | none => rfl
  | some asked =>
    obtain ⟨hook, addr, access, v, -, -, caught, -⟩ := exists_of_invocation? invoked
    unfold Memory.catch? at caught
    rw [Memory.hook?_of_hooks_eq_nil free, ite_self] at caught
    cases caught

theorem MicroOp.note_withProfile (op : MicroOp) (profile : Profile) (w : World σ) :
    op.note (w.withProfile profile) = { op.note w with profile := some profile } := by
  cases op with
  | store addr value =>
    unfold note World.withProfile
    dsimp only
    by_cases readOnly : (w.machine.mem.state addr).rom = true
    · rw [if_pos readOnly, if_pos readOnly]
    · rw [if_neg readOnly, if_neg readOnly]
      by_cases undeclared : (w.machine.mem.state addr).undefined = true
      · rw [if_pos undeclared, if_pos undeclared]
      · rw [if_neg undeclared, if_neg undeclared]
        rfl
  | _ => rfl

theorem MicroOp.accrues (host : Host σ) (op : MicroOp) {w : World σ} (free : w.machine.HookFree) :
    World.Accrues (op.perform host) w := by
  let v : World σ := { w with machine := (op.effect w.machine).2, instruments := op.note w }
  have stillFree : v.machine.HookFree := by
    have kept := (Memory.kept_hookFree host).perform op free
    rwa [op.perform_of_silent host (op.invocation?_of_hookFree free)] at kept
  apply World.Accrues.of_silent (op.effect w.machine).1 v stillFree
  intro profile
  have freeToo : (w.withProfile profile).machine.HookFree := free
  apply Prod.ext
  · exact (op.perform_bare host freeToo.direct).1
  · rw [op.perform_of_silent host (op.invocation?_of_hookFree freeToo), op.note_withProfile]
    rfl

theorem Micro.accrues (host : Host σ) (program : Micro α) {w : World σ} (free : w.machine.HookFree) :
    World.Accrues (program.run host) w := by
  induction program generalizing w with
  | done answer =>
    apply World.Accrues.of_silent answer w free
    intro profile
    rfl
  | step op next inductionHypothesis =>
    have rest (answer : op.Answer) (v : World σ) (stillFree : v.machine.HookFree) :=
      inductionHypothesis answer stillFree
    exact (op.accrues host free).bind rest

namespace World

theorem meter_withProfile (change : Metrics → Metrics) (profile : Profile) (w : World σ) :
    (w.withProfile profile).meter change = (w.meter change).withProfile profile := by
  unfold meter
  have metered : (w.withProfile profile).instruments.metered = w.instruments.metered := rfl
  rw [metered]
  split <;> rfl

theorem traceInstruction_withProfile (pc : UInt16) (profile : Profile) (w : World σ) :
    (w.withProfile profile).traceInstruction pc = (w.traceInstruction pc).withProfile profile := by
  unfold traceInstruction trace
  have sink : (w.withProfile profile).instruments.sink = w.instruments.sink := rfl
  rw [sink]
  rcases w.instruments.sink with _ | ⟨_ | _ | _⟩ <;> rfl

theorem settle_withProfile (profile : Profile) (w : World σ) :
    (w.withProfile profile).settle = (w.settle.1, w.settle.2.withProfile profile) := by
  unfold settle
  have slot : (w.withProfile profile).machine.slot = w.machine.slot := rfl
  rw [slot]
  cases w.machine.slot.fault with
  | none => rfl
  | some fault =>
    have counted := meter_withProfile
      (·.countFault fault.kind.name (w.machine.level.isFatal fault.kind)) profile
      { w with machine := { w.machine with slot := {} } }
    have level : (w.withProfile profile).machine.level = w.machine.level := rfl
    dsimp only
    rw [level]
    split
    · exact congrArg (Prod.mk (some fault)) counted
    · exact congrArg (fun v => (none, v.log (.continuing fault))) counted

variable (host : Host σ) {w : World σ}

theorem runInstruction_accrues (pc : UInt16) (free : w.machine.HookFree) :
    Accrues (fun w => ((), w.runInstruction host pc)) w := by
  have tracedFree : (w.traceInstruction pc).machine.HookFree := by
    rwa [machine_traceInstruction]
  obtain ⟨⟨instruction, value⟩, u, first, fetchedFree, fetched⟩ :=
    (Micro.fetchInstruction pc).accrues host tracedFree
  let next := pc + UInt16.ofNat instruction.length
  let start := (u.mapRegs fun regs => { regs with pc := next }).clearSample
  obtain ⟨_, v, second, workedFree, worked⟩ :=
    (Micro.ofInstruction instruction value).accrues host (w := start) fetchedFree
  let counted := v.meter (·.countInstruction instruction.mnemonic.name)
  let sample := counted.finishedSample start.machine.regs start.machine.cycles next
  have countedFree : counted.machine.HookFree := by
    rwa [machine_meter]
  refine ⟨(), counted, first ++ second ++ [(pc, sample)], countedFree, ?_⟩
  intro profile
  apply congrArg (Prod.mk ())
  have begun : (((u.withProfile (profile.recordAll first)).mapRegs fun regs =>
      { regs with pc := next }).clearSample) = start.withProfile (profile.recordAll first) := rfl
  unfold runInstruction
  dsimp only
  rw [traceInstruction_withProfile, fetched]
  dsimp only
  rw [begun, worked, meter_withProfile, Profile.recordAll_append, Profile.recordAll_append]
  rfl

theorem window_accrues (free : w.machine.HookFree) : Accrues (fun w => ((), w.window host)) w := by
  by_cases ended : (w.machine.limitReached || w.machine.atSentinel) = true
  · apply Accrues.of_silent () (w.window host)
    · rw [window_of_ended ended]
      exact free
    · intro profile
      have endedToo : ((w.withProfile profile).machine.limitReached ||
          (w.withProfile profile).machine.atSentinel) = true := ended
      apply congrArg (Prod.mk ())
      rw [window_of_ended ended, window_of_ended endedToo]
      rfl
  · have unbound := Memory.hook?_of_hooks_eq_nil free .exec w.machine.regs.pc
    have enteredFree : (w.enter w.machine.regs.pc).machine.HookFree := free
    obtain ⟨answer, v, samples, stillFree, same⟩ :=
      runInstruction_accrues host w.machine.regs.pc enteredFree
    refine ⟨answer, v, samples, stillFree, ?_⟩
    intro profile
    rw [← same profile]
    apply congrArg (Prod.mk ())
    have unboundToo : (w.withProfile profile).machine.mem.hook? .exec
        (w.withProfile profile).machine.regs.pc = none := unbound
    exact window_of_no_hook ended unboundToo

theorem step_accrues (free : w.machine.HookFree) : Accrues (step host) w := by
  have settles (v : World σ) (stillFree : v.machine.HookFree) : Accrues settle v := by
    apply Accrues.of_silent v.settle.1 v.settle.2
    · rw [v.settle_bare.2]
      exact stillFree
    · intro profile
      exact v.settle_withProfile profile
  exact (window_accrues host free).bind fun _ v => settles v

theorem steps_accrues (bound : Nat) (free : w.machine.HookFree) : Accrues (steps host bound) w := by
  induction bound generalizing w with
  | zero =>
    apply Accrues.of_silent none w free
    intro profile
    rfl
  | succ bound inductionHypothesis =>
    have rest (stopped : Option Fault) (v : World σ) (stillFree : v.machine.HookFree) :
        Accrues (fun v => stopped.elim (v.steps host bound) fun fault => (some fault, v)) v := by
      cases stopped with
      | none => exact inductionHypothesis stillFree
      | some fault =>
        apply Accrues.of_silent (some fault) v stillFree
        intro profile
        rfl
    have unrolled : steps host (bound + 1) = fun w : World σ =>
        (w.step host).1.elim ((w.step host).2.steps host bound) fun fault =>
          (some fault, (w.step host).2) := by
      funext v
      rw [steps]
      rcases v.step host with ⟨_ | _, _⟩ <;> rfl
    rw [unrolled]
    exact (step_accrues host free).bind rest

theorem finishRun_withProfile (start : UInt64) (fault : Fault) (profile : Profile) (w : World σ) :
    (w.withProfile profile).finishRun start fault = (w.finishRun start fault).withProfile profile := by
  have counted := meter_withProfile (·.countCycles (w.machine.cycles - start)) profile w
  exact congrArg (·.log (.runStopped (w.machine.cycles - start) fault)) counted

theorem run_accrues (bound : Nat) (addr : UInt16) (free : w.machine.HookFree) :
    Accrues (run host bound addr) w := by
  let start := (w.startAt addr).log (.runStarted addr)
  have startFree : start.machine.HookFree := free
  obtain ⟨stopped, v, samples, stillFree, stepped⟩ := steps_accrues host bound startFree
  cases stopped with
  | none =>
    refine ⟨.unfinished, v, samples, stillFree, ?_⟩
    intro profile
    exact run_of_running host (stepped profile)
  | some fault =>
    have finishedFree : (v.finishRun w.machine.cycles fault).machine.HookFree := by
      change (v.meter _).machine.HookFree
      rwa [machine_meter]
    refine ⟨.ofFault fault, v.finishRun w.machine.cycles fault, samples, finishedFree, ?_⟩
    intro profile
    rw [run_of_stopped host (stepped profile)]
    exact congrArg (Prod.mk _) (finishRun_withProfile w.machine.cycles fault _ v)

theorem call_accrues (bound : Nat) (addr : UInt16) (free : w.machine.HookFree) :
    Accrues (call host bound addr) w := by
  have armedFree : w.armed.machine.HookFree := free
  obtain ⟨_, u, first, begunFree, pushed⟩ :=
    (Micro.pushWord (callSentinel - 1)).accrues host armedFree
  obtain ⟨outcome, v, second, ranFree, ran⟩ := run_accrues host bound addr begunFree
  refine ⟨outcome, { v with machine := v.machine.resume w.machine.frame }, first ++ second, ranFree, ?_⟩
  intro profile
  have begun : (w.withProfile profile).beginCall host = u.withProfile (profile.recordAll first) :=
    congrArg Prod.snd (pushed profile)
  unfold call callWithin
  rw [begun, ran, Profile.recordAll_append]
  rfl

theorem operate_accrues (operation : Operation) (free : w.machine.HookFree) :
    Accrues (operate host operation) w := by
  cases operation with
  | step => exact (step_accrues host free).map Reply.stepped
  | run bound addr => exact (run_accrues host bound addr free).map Reply.ended
  | call bound addr => exact (call_accrues host bound addr free).map Reply.ended
  | read addr => exact ((Micro.load addr).accrues host free).map Reply.byte
  | write addr value => exact ((Micro.store addr value).accrues host free).map fun _ => Reply.done
  | push value => exact ((Micro.push value).accrues host free).map fun _ => Reply.done
  | pull => exact (Micro.pull.accrues host free).map Reply.byte

theorem operateAll_accrues (operations : List Operation) (free : w.machine.HookFree) :
    Accrues (operateAll host operations) w := by
  induction operations generalizing w with
  | nil =>
    apply Accrues.of_silent [] w free
    intro profile
    rfl
  | cons operation rest inductionHypothesis =>
    have later (reply : Reply) (v : World σ) (stillFree : v.machine.HookFree) :=
      (inductionHypothesis stillFree).map (reply :: ·)
    exact (operate_accrues host operation free).bind later

/-- Operations give the same with a new profile and with one that holds `base`, and the one ends with `own`, the other
with `own` on top of `base`. -/
structure AddsUp (base own : Profile) (operations : List Operation) (replies : List Reply) (w v : World σ) :
    Prop where
  anew : (w.withProfile (.new w.machine.mem.size)).operateAll host operations = (replies, v.withProfile own)
  onTop : (w.withProfile base).operateAll host operations = (replies, v.withProfile (base + own))
  cells : ∀ addr, (base + own).cell addr = base.cell addr + own.cell addr
  totals : (base + own).totals = base.totals + own.totals
  size : (base + own).size = w.machine.mem.size

theorem exists_addsUp (free : w.machine.HookFree) {base : Profile} (fits : base.size = w.machine.mem.size)
    (operations : List Operation) :
    ∃ replies v own, w.AddsUp host base own operations replies v := by
  obtain ⟨replies, v, samples, -, operated⟩ := operateAll_accrues host operations free
  let own := (Profile.new w.machine.mem.size).recordAll samples
  have size : own.size = base.size := by
    rw [Profile.size_recordAll, Profile.size_new, fits]
  refine ⟨replies, v, own, operated _, ?_, Profile.cell_add size.symm, rfl, ?_⟩
  · rw [operated, Profile.recordAll_eq_add, fits]
  · rw [Profile.size_add, size, Nat.min_self, fits]

/-- A profile that fits memory is loaded from its file as it was saved. -/
theorem loadProfile_encode {saved : Profile} (fits : saved.size = w.machine.mem.size)
    (small : w.machine.mem.size ≤ Profile.maxSize) :
    w.loadProfile saved.encode = (.ok (), w.withProfile saved) := by
  have decoded := Profile.decode_encode (fits ▸ small) []
  rw [List.append_nil] at decoded
  have accepted : Profile.decodeFor w.machine.mem.size saved.encode = .ok saved :=
    Profile.decodeFor_eq_ok_iff.mpr ⟨decoded, fits⟩
  unfold loadProfile
  rw [accepted]
  rfl

/-- A profile that is set is the one that the bytes are the file of. -/
theorem exists_of_loadProfile {bytes : List UInt8} {v w : World σ}
    (loaded : w.loadProfile bytes = (.ok (), v)) :
    ∃ profile, Profile.decode bytes = .ok profile ∧ profile.size = w.machine.mem.size ∧
      v = w.withProfile profile := by
  unfold loadProfile at loaded
  cases decoded : Profile.decodeFor w.machine.mem.size bytes with
  | error error =>
    rw [decoded] at loaded
    cases loaded
  | ok profile =>
    rw [decoded] at loaded
    obtain ⟨read, fits⟩ := Profile.decodeFor_eq_ok_iff.mp decoded
    exact ⟨profile, read, fits, (congrArg Prod.snd loaded).symm⟩

/-- What operations record is added to what a profile held before; and where the sum is saved and loaded, what later
operations record is added to it in turn. -/
theorem profiles_add_up (free : w.machine.HookFree) {base : Profile}
    (fits : base.size = w.machine.mem.size) (operations : List Operation) :
    ∃ replies v own, w.AddsUp host base own operations replies v ∧
      ∀ {τ : Type} {later : World τ} (laterHost : Host τ), later.machine.HookFree →
        later.machine.mem.size = w.machine.mem.size → w.machine.mem.size ≤ Profile.maxSize →
          later.loadProfile (base + own).encode = (.ok (), later.withProfile (base + own)) ∧
            ∀ laterOperations, ∃ laterReplies v' more,
              later.AddsUp laterHost (base + own) more laterOperations laterReplies v' := by
  obtain ⟨replies, v, own, sum⟩ := exists_addsUp host free fits operations
  refine ⟨replies, v, own, sum, ?_⟩
  intro τ later laterHost laterFree same small
  have laterFits : (base + own).size = later.machine.mem.size := sum.size.trans same.symm
  constructor
  · exact loadProfile_encode laterFits (same ▸ small)
  · intro laterOperations
    exact exists_addsUp laterHost laterFree laterFits laterOperations

/-- INX, BRK. -/
def increment : World Unit :=
  (ofSettings { memSize := 4 } {} ()).mapMem (·.declareData 0 [0xE8, 0x00])

/-- A profile of five instructions, all at address zero. -/
def earlier : Profile :=
  { cells := #[{ cycles := 10 }, {}, {}, {}], totals := { instructions := 5, cycles := 10 } }

theorem increment_adds_up :
    ∃ replies v own, increment.AddsUp CommandLine.hooklessHost earlier own [.run 2 0] replies v ∧
      (earlier + own).totals.instructions = 7 ∧
        increment.loadProfile (earlier + own).encode = (.ok (), increment.withProfile (earlier + own)) := by
  have free : increment.machine.HookFree := rfl
  have fits : earlier.size = increment.machine.mem.size := by decide +kernel
  have small : increment.machine.mem.size ≤ Profile.maxSize := by decide +kernel
  obtain ⟨replies, v, own, sum, reload⟩ :=
    profiles_add_up CommandLine.hooklessHost free fits [.run 2 0]
  have instructions : ((increment.withProfile earlier).operateAll CommandLine.hooklessHost
      [.run 2 0]).2.instruments.profile.map (·.totals.instructions) = some 7 := by
    decide +kernel
  rw [sum.onTop] at instructions
  refine ⟨replies, v, own, sum, Option.some.inj instructions, ?_⟩
  exact (reload CommandLine.hooklessHost free rfl small).1

end World

end Mos6502
