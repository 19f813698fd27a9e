import Mos6502.Proofs.Bare.Correspondence

/-!
# Operations and what they keep of memory

Operations are what a host asks of a machine from outside of any instruction. Execution changes memory in two
ways only: reading marks a never-written cell as written, and writing stores into RAM. All else that can happen to
memory happens in hooks. So a property of memories that these three keep is kept by every access, micro-operation,
window, run and call, and by any sequence of operations.
-/

namespace Mos6502

variable {σ α β : Type}

/-- What a host can ask of a machine. Runs and calls come with a bound on their windows. -/
inductive Operation where
  | step
  | run (bound : Nat) (addr : UInt16)
  | call (bound : Nat) (addr : UInt16)
  | read (addr : UInt16)
  | write (addr : UInt16) (value : UInt8)
  | push (value : UInt8)
  | pull
deriving DecidableEq, Repr

/-- What an operation answers. -/
inductive Reply where
  | stepped (fault : Option Fault)
  | ended (outcome : Outcome)
  | byte (value : UInt8)
  | done
deriving DecidableEq, Repr

namespace World

def operate (host : Host σ) (operation : Operation) (w : World σ) : Reply × World σ :=
  match operation with
  | .step => (w.step host).map .stepped id
  | .run bound addr => (w.run host bound addr).map .ended id
  | .call bound addr => (w.call host bound addr).map .ended id
  | .read addr => (w.read host addr).map .byte id
  | .write addr value => (.done, w.write host addr value)
  | .push value => ((Micro.push value).run host w).map (fun _ => .done) id
  | .pull => (Micro.pull.run host w).map .byte id

def operateAll (host : Host σ) : List Operation → World σ → List Reply × World σ
  | [], w => ([], w)
  | operation :: rest, w =>
    match w.operate host operation with
    | (reply, w) => (w.operateAll host rest).map (reply :: ·) id

@[simp]
theorem operateAll_cons (host : Host σ) (operation : Operation) (rest : List Operation)
    (w : World σ) :
    w.operateAll host (operation :: rest) =
      ((w.operate host operation).1 :: ((w.operate host operation).2.operateAll host rest).1,
        ((w.operate host operation).2.operateAll host rest).2) := rfl

/-- A world in which a call is under way, before the return address is pushed. -/
def armed (w : World σ) : World σ :=
  { w with machine := { w.machine with inCall := true, slot := {} } }

/-- What each window lists, over the windows that are executed until one stops or the bound is reached. -/
def along (host : Host σ) (each : World σ → List β) : Nat → World σ → List β
  | 0, _ => []
  | bound + 1, w =>
    each w ++
      match w.step host with
      | (some _, _) => []
      | (none, w) => w.along host each bound

def alongRun (host : Host σ) (each : World σ → List β) (bound : Nat) (addr : UInt16) (w : World σ) :
    List β :=
  ((w.startAt addr).log (.runStarted addr)).along host each bound

/-- What an operation lists, put together from the microcode and the windows that it executes. -/
def alongOperation (host : Host σ) (microcode : {α : Type} → Micro α → World σ → List β)
    (each : World σ → List β) (operation : Operation) (w : World σ) : List β :=
  match operation with
  | .step => each w
  | .run bound addr => w.alongRun host each bound addr
  | .call bound addr =>
    microcode (Micro.pushWord (callSentinel - 1)) w.armed ++
      (w.beginCall host).alongRun host each bound addr
  | .read addr => microcode (Micro.load addr) w
  | .write addr value => microcode (Micro.store addr value) w
  | .push value => microcode (Micro.push value) w
  | .pull => microcode Micro.pull w

end World

/-- A property of memories that marking cells as written, storing into RAM, and the hooks that an access can reach
all keep. -/
structure Kept (P : Memory → Prop) (host : Host σ) : Prop where
  mark {mem : Memory} (addr : UInt16) : P mem → P (mem.markInitialized addr)
  put {mem : Memory} {addr : UInt16} (value : UInt8) :
    (mem.state addr).rom = false → (mem.state addr).undefined = false → P mem →
      P ((mem.store addr value).markInitialized addr)
  respond {w : World σ} {hook : Nat} {addr : UInt16} {access : Access} :
    w.machine.mem.hook? access.kind addr = some hook → P w.machine.mem →
      P (host.respond hook addr access w).2.machine.mem

namespace Kept

variable {P : Memory → Prop} {host : Host σ} {w : World σ}

theorem invoke (kept : Kept P host) {hook : Nat} {addr : UInt16} (access : Access)
    (bound : w.machine.mem.hook? access.kind addr = some hook) (holds : P w.machine.mem) :
    P (w.invoke host hook addr access).2.machine.mem := by
  apply kept.respond
  · rwa [World.machine_meter]
  · rwa [World.machine_meter]

theorem readAs (kept : Kept P host) (undefined uninitialized : FaultKind) (addr : UInt16)
    (holds : P w.machine.mem) :
    P (w.readAs host undefined uninitialized addr).2.machine.mem := by
  unfold World.readAs
  dsimp only
  split
  next plain => exact holds
  next classified =>
    split
    next hook found =>
      have bound := (Option.ite_none_right_eq_some.mp found).2
      have answered := kept.invoke .read bound holds
      split
      next answer => rwa [answer] at answered
      next answer => rwa [answer] at answered
    next unbound =>
      split
      next undeclared => exact holds
      next declared =>
        split
        next blank => exact kept.mark addr holds
        next written => exact holds

theorem write (kept : Kept P host) (addr : UInt16) (value : UInt8) (holds : P w.machine.mem) :
    P (w.write host addr value).machine.mem := by
  unfold World.write
  dsimp only
  split
  next plain =>
    obtain ⟨declared, writable, -⟩ := CellState.flags_of_isPlain plain
    exact kept.put value writable declared holds
  next classified =>
    split
    next hook found =>
      have bound := (Option.ite_none_right_eq_some.mp found).2
      have answered := kept.invoke (w := w.noteStore true) (.write value) bound holds
      split
      next answer => rwa [answer] at answered
      next answer => rwa [answer] at answered
    next unbound =>
      split
      next readOnly => exact holds
      next writable =>
        split
        next undeclared => exact holds
        next declared =>
          exact kept.put value (eq_false_of_ne_true writable) (eq_false_of_ne_true declared) holds

theorem perform (kept : Kept P host) (op : MicroOp) (holds : P w.machine.mem) :
    P (op.perform host w).2.machine.mem := by
  cases op with
  | fetch addr => exact kept.readAs .executeUndefined .executeUninitialized addr holds
  | load addr => exact kept.readAs .readUndefined .readUninitialized addr holds
  | store addr value => exact kept.write addr value holds
  | flag which =>
    simp only [MicroOp.perform, World.readFlag]
    split <;> exact holds
  | isBlank | register | setRegister | pc | setPc | setFlag | forget | status | setStatus | here
    | raise | charge | observe => exact holds

/-- What micro-operations keep, microcode keeps. -/
theorem microcode (kept : Kept P host) (program : Micro α) (holds : P w.machine.mem) :
    P (program.run host w).2.machine.mem := by
  induction program generalizing w with
  | done result => exact holds
  | step op next inductionHypothesis => exact inductionHypothesis _ (kept.perform op holds)

theorem runInstruction (kept : Kept P host) (pc : UInt16) (holds : P w.machine.mem) :
    P (w.runInstruction host pc).machine.mem := by
  have traced : P (w.traceInstruction pc).machine.mem := by
    rwa [World.machine_traceInstruction]
  have fetched := kept.microcode (Micro.fetchInstruction pc) traced
  simp only [World.runInstruction, World.profileSample, World.machine_meter]
  generalize (Micro.fetchInstruction pc).run host (w.traceInstruction pc) = result at fetched
  obtain ⟨⟨instruction, value⟩, v⟩ := result
  have advanced : P (v.mapRegs fun regs =>
      { regs with pc := pc + UInt16.ofNat instruction.length }).clearSample.machine.mem := fetched
  exact kept.microcode (Micro.ofInstruction instruction value) advanced

theorem runHook (kept : Kept P host) {hook : Nat} {pc : UInt16}
    (bound : w.machine.mem.hook? .exec pc = some hook) (holds : P w.machine.mem) :
    P (w.runHook host hook pc).machine.mem := by
  have answered := kept.invoke .exec bound holds
  unfold World.runHook
  split
  next answer => rwa [answer] at answered
  next answer =>
    rw [answer] at answered
    split
    · exact kept.microcode Micro.returnFromSubroutine answered
    · exact answered

theorem window (kept : Kept P host) (holds : P w.machine.mem) : P (w.window host).machine.mem := by
  unfold World.window
  dsimp only
  split
  next limit => exact holds
  next below =>
    split
    next sentinel => exact holds
    next away =>
      split
      next hook bound => exact kept.runHook bound holds
      next unbound => exact kept.runInstruction w.machine.regs.pc holds

theorem settle (holds : P w.machine.mem) : P w.settle.2.machine.mem := by
  rw [w.settle_bare.2]
  exact holds

theorem step (kept : Kept P host) (holds : P w.machine.mem) : P (w.step host).2.machine.mem :=
  settle (kept.window holds)

theorem steps (kept : Kept P host) (bound : Nat) (holds : P w.machine.mem) :
    P (w.steps host bound).2.machine.mem := by
  induction bound generalizing w with
  | zero => exact holds
  | succ bound inductionHypothesis =>
    have stepped := kept.step holds
    unfold World.steps
    split
    next outcome => rwa [outcome] at stepped
    next outcome =>
      rw [outcome] at stepped
      exact inductionHypothesis stepped

theorem run (kept : Kept P host) (bound : Nat) (addr : UInt16) (holds : P w.machine.mem) :
    P (w.run host bound addr).2.machine.mem := by
  rw [(World.run_eq_steps host bound addr w).2]
  exact kept.steps (w := (w.startAt addr).log (.runStarted addr)) bound holds

theorem call (kept : Kept P host) (bound : Nat) (addr : UInt16) (holds : P w.machine.mem) :
    P (w.call host bound addr).2.machine.mem := by
  have begun : P (w.beginCall host).machine.mem := kept.microcode _ holds
  exact kept.run bound addr begun

/-- What accesses and hooks keep, every operation keeps. -/
theorem operate (kept : Kept P host) (operation : Operation) (holds : P w.machine.mem) :
    P (w.operate host operation).2.machine.mem := by
  cases operation with
  | step => exact kept.step holds
  | run bound addr => exact kept.run bound addr holds
  | call bound addr => exact kept.call bound addr holds
  | read addr => exact kept.perform (.load addr) holds
  | write addr value => exact kept.write addr value holds
  | push value => exact kept.microcode (Micro.push value) holds
  | pull => exact kept.microcode Micro.pull holds

theorem operateAll (kept : Kept P host) (operations : List Operation) (holds : P w.machine.mem) :
    P (w.operateAll host operations).2.machine.mem := by
  induction operations generalizing w with
  | nil => exact holds
  | cons operation rest inductionHypothesis =>
    rw [World.operateAll_cons]
    exact inductionHypothesis (kept.operate operation holds)

end Kept

end Mos6502
