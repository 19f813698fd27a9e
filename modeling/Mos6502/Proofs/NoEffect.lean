import Mos6502.Proofs.Bare.Stores
import Mos6502.Proofs.Inspection
import Mos6502.Proofs.ProfileSum

/-!
# Instructions without effect

The profile counts the instructions that leave everything as it was and go on to the next one. It does not compare
memories for that: every store notes whether it changes its byte. As no instruction stores to one cell twice, a byte
that a store has changed is not put back by another, and the note says as much as a comparison would.
-/

namespace Mos6502

variable {σ α : Type}

def Machine.SameBytes (m n : Machine) : Prop :=
  ∀ addr, n.mem.raw addr = m.mem.raw addr

/-- Only a store to a writable cell that holds another byte alters memory. -/
theorem MicroOp.alters_eq_false_iff (op : MicroOp) (w : World σ) :
    op.alters w = false ↔ w.machine.SameBytes (op.effect w.machine).2 := by
  cases op with
  | store target value =>
    have stored (addr : UInt16) := w.machine.raw_write target value addr
    constructor
    · intro silent addr
      apply (stored addr).trans
      split
      next here =>
        obtain ⟨writable, declared, rfl⟩ := here
        have held : w.machine.mem.raw target = value := by
          simpa [alters, writable, declared] using silent
        exact held.symm
      next elsewhere => rfl
    · intro same
      have kept := (stored target).symm.trans (same target)
      cases writable : (w.machine.mem.state target).rom with
      | true => simp [alters, writable]
      | false =>
        cases declared : (w.machine.mem.state target).undefined with
        | true => simp [alters, declared]
        | false =>
          rw [if_pos ⟨writable, declared, rfl⟩] at kept
          simp [alters, kept]
  | _ => exact ⟨fun _ addr => raw_effect (by simp [target?]) w.machine, fun _ => rfl⟩

namespace Micro

theorem invocations_of_hookFree (host : Host σ) (program : Micro α) {w : World σ}
    (free : w.machine.HookFree) : program.invocations host w = [] := by
  induction program generalizing w with
  | done result => rfl
  | step op next inductionHypothesis =>
    have later := inductionHypothesis (op.perform host w).1
      ((Memory.kept_hookFree host).perform op free)
    rw [invocations_step, op.invocation?_of_hookFree free, later]
    rfl

/-- Bytes that are the same in the end were the same all along, if no cell is stored to twice. -/
theorem sameBytes_step {op : MicroOp} {next : op.Answer → Micro α} {m : Machine}
    (once : ((step op next).stores m).Nodup) :
    m.SameBytes ((step op next).exec m).2 ↔
      m.SameBytes (op.effect m).2 ∧
        (op.effect m).2.SameBytes ((next (op.effect m).1).exec (op.effect m).2).2 := by
  rw [stores_step, List.nodup_append] at once
  obtain ⟨-, -, apart⟩ := once
  constructor
  · intro same
    have first : m.SameBytes (op.effect m).2 := by
      intro addr
      by_cases stored : op.target? = some addr
      · -- The rest leaves the byte alone, so it is already what it is in the end.
        have later := raw_exec fun again => apart addr (by simp [stored]) addr again rfl
        exact later.symm.trans (same addr)
      · exact op.raw_effect stored m
    exact ⟨first, fun addr => (same addr).trans (first addr).symm⟩
  · rintro ⟨first, later⟩ addr
    exact (later addr).trans (first addr)

/-- Where no hook is bound and no cell is stored to twice, the mark of a store is left out if and only if memory is the
same in the end. -/
theorem altersLast_eq_false_iff (host : Host σ) {program : Micro α} {w : World σ}
    (free : w.machine.HookFree) (once : (program.stores w.machine).Nodup) :
    program.altersLast host w = false ↔ w.machine.SameBytes (program.exec w.machine).2 := by
  induction program generalizing w with
  | done result => exact ⟨fun _ _ => rfl, fun _ => rfl⟩
  | step op next inductionHypothesis =>
    obtain ⟨answer, machine⟩ := op.perform_bare host free.direct
    have stillFree := (Memory.kept_hookFree host).perform op free
    have silent := (next (op.perform host w).1).invocations_of_hookFree host stillFree
    have rest := inductionHypothesis (op.perform host w).1 stillFree <| by
      rw [machine, answer]
      exact (List.nodup_append.mp once).2.1
    rw [machine, answer] at rest
    rw [sameBytes_step once, ← rest, ← op.alters_eq_false_iff, altersLast_step, silent,
      op.invocation?_of_hookFree free, answer]
    simp

/-- Microcode that comes to no hook leaves the profile alone. -/
theorem profile_run (host : Host σ) (program : Micro α) {w : World σ} (free : w.machine.HookFree) :
    (program.run host w).2.instruments.profile = w.instruments.profile := by
  have blind : program.Uses fun op =>
      ∀ v : World σ, (op.note v).profile = v.instruments.profile := by
    apply uses_of_forall
    intro op v
    obtain ⟨_, _, noted⟩ := op.exists_note_eq v
    rw [noted]
  rw [seen_run host (·.profile) blind w, program.invocations_of_hookFree host free]
  rfl

end Micro

/-- An instruction has passed without effect: bytes, registers and status are as before it, and the program counter is
at the next instruction. -/
structure Machine.Passed (m n : Machine) : Prop where
  bytes : m.SameBytes n
  a : n.regs.a = m.regs.a
  x : n.regs.x = m.regs.x
  y : n.regs.y = m.regs.y
  sp : n.regs.sp = m.regs.sp
  status : n.regs.status = m.regs.status
  pc : n.regs.pc =
    m.regs.pc + UInt16.ofNat (Instruction.decode (m.mem.raw m.regs.pc)).length

theorem Machine.Passed.congr {m n m' n' : Machine} (passed : m.Passed n) (regs : m'.regs = m.regs)
    (mem : m'.mem = m.mem) (regsToo : n'.regs = n.regs) (memToo : n'.mem = n.mem) : m'.Passed n' := by
  obtain ⟨bytes, a, x, y, sp, status, pc⟩ := passed
  unfold SameBytes at bytes
  rw [← mem, ← memToo] at bytes
  rw [← regs, ← regsToo] at a x y sp status
  rw [← regs, ← regsToo, ← mem] at pc
  exact ⟨bytes, a, x, y, sp, status, pc⟩

theorem Registers.differsVisibly_eq_false_iff (before after : Registers) :
    before.differsVisibly after = false ↔
      before.a = after.a ∧ before.x = after.x ∧ before.y = after.y ∧ before.sp = after.sp ∧
        before.status = after.status := by
  simp [differsVisibly, and_assoc]

namespace World

/-- The profile of a world, with a cell for each cell of memory: profiling starts with one, whether the profile is new
or loaded, and execution keeps it. -/
structure Profiled (profile : Profile) (w : World σ) : Prop where
  running : w.instruments.profile = some profile
  fits : profile.size = w.machine.mem.size

theorem profiled_enableProfile {w : World σ} (unprofiled : w.instruments.profile = none) :
    w.enableProfile.Profiled (.new w.machine.mem.size) := by
  unfold enableProfile
  rw [unprofiled]
  exact ⟨rfl, Profile.size_new _⟩

section

variable (host : Host σ) {w : World σ} (free : w.machine.HookFree) (pc : UInt16)

include free

theorem fetched_of_hookFree :
    w.instruction host pc = Instruction.decode (w.machine.mem.raw pc) ∧
      (w.fetched host pc).2.machine =
        w.machine.noteFetched ((Instruction.decode (w.machine.mem.raw pc)).addresses pc) := by
  generalize described : Instruction.decode (w.machine.mem.raw pc) = instruction
  have unwatched : ∀ addr ∈ instruction.addresses pc, w.machine.mem.hook? .read addr = none := by
    intro addr _
    exact Memory.hook?_of_hooks_eq_nil free .read addr
  have fetched : (w.fetched host pc).1 = (instruction, w.machine.mem.operandAt pc instruction) ∧
      (w.fetched host pc).2.machine = w.machine.noteFetched (instruction.addresses pc) :=
    fetched_of_unwatched described unwatched
  exact ⟨congrArg Prod.fst fetched.1, fetched.2⟩

/-- Without hooks the work of an instruction begins with what there was before it, but for the program counter. -/
theorem poised_of_hookFree :
    (w.poised host pc).machine.HookFree ∧ w.machine.SameBytes (w.poised host pc).machine ∧
      (w.poised host pc).machine.regs =
        { w.machine.regs with pc := w.nextAddress host pc } := by
  have fetched := (fetched_of_hookFree host free pc).2
  have poised : (w.poised host pc).machine =
      (w.fetched host pc).2.machine.startAt (w.nextAddress host pc) := by
    unfold World.poised
    rw [machine_clearSample, machine_mapRegs]
    rfl
  generalize (Instruction.decode (w.machine.mem.raw pc)).addresses pc = addresses at fetched
  generalize w.nextAddress host pc = next at poised ⊢
  rw [poised, fetched]
  refine ⟨?_, w.machine.raw_noteFetched addresses, ?_⟩
  · exact (Machine.hooks_eq (w.machine.fixture_noteFetched addresses)).trans free
  · exact congrArg (fun regs : Registers => { regs with pc := next })
      (w.machine.regs_noteFetched addresses)

/-- The sample of an instruction says that there is no effect exactly if there is none. -/
theorem effect_eq_false_iff (at_pc : w.machine.regs.pc = pc) :
    (w.retiredSample host pc).effect = false ↔
      w.machine.Passed (w.worked host pc).machine := by
  have decoded := (fetched_of_hookFree host free pc).1
  obtain ⟨poisedFree, fetched, regs⟩ := poised_of_hookFree host free pc
  have once : ((w.work host pc).stores (w.poised host pc).machine).Nodup := by
    unfold work
    rw [Micro.stores_ofInstruction]
    exact Mnemonic.nodup_storesTo _ _ _
  have marked : (w.work host pc).altersLast host (w.poised host pc) = false ↔
      (w.poised host pc).machine.SameBytes (w.worked host pc).machine := by
    unfold worked
    rw [((w.work host pc).run_bare host poisedFree.direct).2]
    exact (w.work host pc).altersLast_eq_false_iff host poisedFree once
  have silent : w.workInvocations host pc = [] :=
    (w.work host pc).invocations_of_hookFree host poisedFree
  have next : w.nextAddress host pc = w.machine.regs.pc +
      UInt16.ofNat (Instruction.decode (w.machine.mem.raw w.machine.regs.pc)).length := by
    rw [at_pc, ← decoded]
    rfl
  have goesOn : ((w.worked host pc).machine.regs.pc != w.nextAddress host pc) = false ↔
      (w.worked host pc).machine.regs.pc = w.nextAddress host pc := bne_eq_false_iff_eq
  rw [effect_retiredSample, silent, lastSeen_nil, Bool.false_or, Bool.or_eq_false_iff,
    Bool.or_eq_false_iff, marked, Registers.differsVisibly_eq_false_iff, regs, goesOn, next]
  dsimp only
  generalize (w.poised host pc).machine = start at fetched
  generalize (w.worked host pc).machine = done
  constructor
  · rintro ⟨⟨bytes, goes⟩, a, x, y, sp, status⟩
    exact ⟨fun addr => (bytes addr).trans (fetched addr), a.symm, x.symm, y.symm, sp.symm,
      status.symm, goes⟩
  · intro passed
    exact ⟨⟨fun addr => (passed.bytes addr).trans (fetched addr).symm, passed.pc⟩, passed.a.symm,
      passed.x.symm, passed.y.symm, passed.sp.symm, passed.status.symm⟩

theorem profile_worked_of_hookFree :
    (w.worked host pc).instruments.profile = w.instruments.profile := by
  have tracedFree : (w.traceInstruction pc).machine.HookFree := by
    rwa [machine_traceInstruction]
  have traced : (w.traceInstruction pc).instruments.profile = w.instruments.profile := by
    obtain ⟨_, _, same⟩ := w.exists_traceInstruction_eq pc
    rw [same]
  have fetched : (w.fetched host pc).2.instruments.profile = w.instruments.profile := by
    unfold World.fetched
    rw [Micro.profile_run host _ tracedFree, traced]
  have poised : (w.poised host pc).instruments.profile =
      (w.fetched host pc).2.instruments.profile := by
    obtain ⟨_, same⟩ := w.exists_poised_eq host pc
    rw [same]
  unfold worked
  rw [Micro.profile_run host _ (poised_of_hookFree host free pc).1, poised, fetched]

end

section

variable (host : Host σ) {w : World σ} (free : w.machine.HookFree)
  (going : ¬(w.machine.limitReached || w.machine.atSentinel) = true)

include free going

/-- The step that executes an instruction records its sample, and ends as its work does. -/
theorem step_of_hookFree {profile : Profile} (profiled : w.Profiled profile) :
    (w.step host).2.Profiled (profile.record w.machine.regs.pc
        ((w.enter w.machine.regs.pc).retiredSample host w.machine.regs.pc)) ∧
      (w.step host).2.machine.regs =
        ((w.enter w.machine.regs.pc).worked host w.machine.regs.pc).machine.regs ∧
      (w.step host).2.machine.mem =
        ((w.enter w.machine.regs.pc).worked host w.machine.regs.pc).machine.mem := by
  have unbound := Memory.hook?_of_hooks_eq_nil free .exec w.machine.regs.pc
  have enteredFree : (w.enter w.machine.regs.pc).machine.HookFree := free
  have window : w.window host =
      (w.enter w.machine.regs.pc).runInstruction host w.machine.regs.pc :=
    window_of_no_hook going unbound
  have machine : (w.window host).machine =
      ((w.enter w.machine.regs.pc).worked host w.machine.regs.pc).machine := by
    rw [window, machine_runInstruction]
  have sampled (v : World σ) (addr : UInt16) (sample : Sample) :
      (v.profileSample addr sample).instruments.profile =
        v.instruments.profile.map (·.record addr sample) := rfl
  have recorded : (w.window host).instruments.profile = some (profile.record w.machine.regs.pc
      ((w.enter w.machine.regs.pc).retiredSample host w.machine.regs.pc)) := by
    rw [window, runInstruction_eq, sampled, profile_meter,
      profile_worked_of_hookFree host enteredFree]
    exact congrArg (Option.map _) profiled.running
  have size : (w.step host).2.machine.mem.size = w.machine.mem.size := by
    rw [(w.step_bare host free).2]
    exact congrArg Fixture.size w.machine.fixture_step
  obtain ⟨faults, log, settled⟩ := (w.window host).exists_settle_eq
  have step : (w.step host).2 = (w.window host).settle.2 := rfl
  rw [step, settled] at size ⊢
  rw [← machine]
  refine ⟨⟨recorded, ?_⟩, rfl, rfl⟩
  rw [Profile.size_record, profiled.fits, size]

end

/-- The profile counts an instruction as one without effect, in total and at its address, if and only if the step
that executes it passes it without effect. -/
theorem no_effect_counted_iff_passed (host : Host σ) {w : World σ} (free : w.machine.HookFree)
    (going : ¬(w.machine.limitReached || w.machine.atSentinel) = true) {profile : Profile}
    (profiled : w.Profiled profile) (inside : w.machine.regs.pc.toNat < w.machine.mem.size) :
    ∃ later, (w.step host).2.Profiled later ∧
      (w.machine.Passed (w.step host).2.machine →
        later.totals.noEffect = profile.totals.noEffect + 1 ∧
          (later.cell w.machine.regs.pc).noEffect =
            (profile.cell w.machine.regs.pc).noEffect + 1) ∧
      (¬w.machine.Passed (w.step host).2.machine →
        later.totals.noEffect = profile.totals.noEffect ∧
          (later.cell w.machine.regs.pc).noEffect = (profile.cell w.machine.regs.pc).noEffect) := by
  have enteredFree : (w.enter w.machine.regs.pc).machine.HookFree := free
  obtain ⟨recorded, regs, mem⟩ := w.step_of_hookFree host free going profiled
  have silent := effect_eq_false_iff host enteredFree w.machine.regs.pc rfl
  generalize (w.enter w.machine.regs.pc).retiredSample host w.machine.regs.pc = sample
    at recorded silent
  have passes : sample.effect = false ↔ w.machine.Passed (w.step host).2.machine := by
    rw [silent]
    exact ⟨fun passed => passed.congr rfl rfl regs mem,
      fun passed => passed.congr rfl rfl regs.symm mem.symm⟩
  refine ⟨_, recorded, ?_⟩
  rw [Profile.cell_record (profiled.fits ▸ inside), ← passes]
  have total : (profile.record w.machine.regs.pc sample).totals.noEffect =
      profile.totals.noEffect + countOf (!sample.effect) := rfl
  have single : ((profile.cell w.machine.regs.pc).add sample).noEffect =
      (profile.cell w.machine.regs.pc).noEffect + countOf (!sample.effect) := rfl
  rw [total, single]
  constructor
  · intro without
    rw [without]
    exact ⟨rfl, rfl⟩
  · intro effective
    rw [eq_true_of_ne_false effective]
    exact ⟨UInt64.add_zero _, UInt64.add_zero _⟩

/-- A store to RAM that holds the stored byte already. -/
def sameStore : World Unit :=
  ((ofSettings { memSize := 8 } {} ()).mapMem (·.declareData 0 [0x85, 0x06])).mapMem
    (·.declareRam 6 1 true)

theorem sameStore_counted :
    sameStore.enableProfile.machine.HookFree ∧
      ∃ later, (sameStore.enableProfile.step CommandLine.hooklessHost).2.Profiled later ∧
        later.totals.noEffect = 1 ∧ (later.cell 0).noEffect = 1 := by
  have free : sameStore.enableProfile.machine.HookFree := rfl
  have profiled := profiled_enableProfile (w := sameStore) rfl
  have going : ¬(sameStore.enableProfile.machine.limitReached ||
      sameStore.enableProfile.machine.atSentinel) = true := by
    decide +kernel
  obtain ⟨later, stillProfiled, counted, -⟩ :=
    no_effect_counted_iff_passed CommandLine.hooklessHost free going profiled (by decide +kernel)
  have same : (sameStore.enableProfile.step CommandLine.hooklessHost).2.machine.mem =
      sameStore.enableProfile.machine.mem := by
    decide +kernel
  have passed : sameStore.enableProfile.machine.Passed
      (sameStore.enableProfile.step CommandLine.hooklessHost).2.machine := by
    refine ⟨fun addr => congrArg (·.raw addr) same, ?_, ?_, ?_, ?_, ?_, ?_⟩
    all_goals decide +kernel
  obtain ⟨total, single⟩ := counted passed
  exact ⟨free, later, stillProfiled, total, single⟩

end World

end Mos6502
