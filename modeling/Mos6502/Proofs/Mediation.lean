import Mos6502.Proofs.Invocation
import Mos6502.Proofs.MemoryInvariant

/-!
# Complete mediation by hooks

An access looks for a hook only where the cell is marked, and a plain cell is not looked at any closer. That no hook
is missed rests on one invariant: a cell is marked exactly where a read or write hook is bound. It is kept by
declarations, by execution and by hooks that do such things in turn. It is also kept by restoring, whatever the
snapshot says about marks, so that here any snapshot may be restored and not only those of sound machines.

What is invoked is then seen with a host that keeps a log: an access where a hook of its kind is bound adds exactly
the invocation of that hook, and all others add nothing.
-/

namespace Mos6502

variable {σ : Type}

/-- A cell is marked exactly where a read or write hook is bound. -/
def Memory.Marked (mem : Memory) : Prop :=
  ∀ addr, (mem.state addr).hooked = true ↔
    (mem.hook? .read addr).isSome = true ∨ (mem.hook? .write addr).isSome = true

def Cell.SameMark (before after : Cell) : Prop :=
  after.state.hooked = before.state.hooked

theorem Cell.SameMark.refl (cell : Cell) : cell.SameMark cell := rfl

namespace Memory

variable {mem after : Memory}

theorem Marked.of_cellwise (marked : mem.Marked) (related : mem.Cellwise Cell.SameMark after) :
    after.Marked := by
  intro addr
  have same : (after.state addr).hooked = (mem.state addr).hooked := by
    have cells := related.cells addr.toNat
    unfold state cell?
    generalize mem.cells[addr.toNat]? = found at cells
    generalize after.cells[addr.toNat]? = foundAfter at cells
    cases cells with
    | none => rfl
    | some same => exact same
  unfold hook?
  rw [same, related.hooks]
  exact marked addr

theorem marked_new (size : Nat) (fill : Fill) : (new size fill).Marked := by
  intro addr
  rw [state_new]
  simp [CellState.undeclared, hook?, new]

theorem Marked.bind (marked : mem.Marked) (kind : AccessKind) (start length hook : Nat) :
    (mem.bind kind start length hook).Marked := by
  intro addr
  rw [hooked_bind, isSome_hook?_bind, isSome_hook?_bind, marked addr]
  cases kind <;> simp [or_assoc, or_left_comm]

theorem Marked.markInitialized (marked : mem.Marked) (addr : UInt16) :
    (mem.markInitialized addr).Marked := by
  have marks (cell : Cell) : cell.SameMark cell.asInitialized := rfl
  exact marked.of_cellwise (cellwise_modify .refl fun cell _ => marks cell)

theorem Marked.store (marked : mem.Marked) (addr : UInt16) (value : UInt8) :
    (mem.store addr value).Marked := by
  have stores (cell : Cell) : cell.SameMark (cell.withByte value) := rfl
  exact marked.of_cellwise (cellwise_modify .refl fun cell _ => stores cell)

theorem Marked.declare (marked : mem.Marked) (declaration : Declaration) :
    (declaration.apply mem).Marked := by
  cases declaration with
  | ram start length zeroed =>
    cases zeroed with
    | true =>
      have zeroes (cell : Cell) : cell.SameMark cell.asZeroed := rfl
      exact marked.of_cellwise (cellwise_changeRange .refl zeroes mem start _)
    | false =>
      have blanks (cell : Cell) : cell.SameMark cell.asUninitialized := rfl
      exact marked.of_cellwise (cellwise_changeRange .refl blanks mem start _)
  | data start bytes =>
    have fills (byte : UInt8) (cell : Cell) : cell.SameMark (cell.asData byte) := rfl
    exact marked.of_cellwise (cellwise_changeBytes .refl fills mem start bytes)
  | rom start bytes =>
    have fills (byte : UInt8) (cell : Cell) : cell.SameMark (cell.asRom byte) := rfl
    exact marked.of_cellwise (cellwise_changeBytes .refl fills mem start bytes)
  | bind kind start length hook => exact marked.bind kind start length hook
  | initialized addr => exact marked.markInitialized addr

theorem Marked.withImage (marked : mem.Marked) {bytes states : List UInt8}
    (full : bytes.length = mem.size) (stateFull : states.length = mem.size) :
    (mem.withImage bytes states).Marked := by
  apply marked.of_cellwise
  refine ⟨rfl, ?_⟩
  intro index
  unfold size at full stateFull
  have replaced : (mem.withImage bytes states).cells[index]? =
      (List.zipWith (fun cell image => cell.withImage image.1 image.2) mem.cells.toList
        (bytes.zip states))[index]? :=
    List.getElem?_toArray
  rw [replaced, List.getElem?_zipWith, Array.getElem?_toList]
  by_cases inside : index < mem.cells.size
  · have zipped : index < (bytes.zip states).length := by
      rw [List.length_zip, full, stateFull, Nat.min_self]
      exact inside
    rw [Array.getElem?_eq_getElem inside, List.getElem?_eq_getElem zipped]
    -- The mark of the image is not taken over, whatever it is.
    exact .some rfl
  · rw [Array.getElem?_eq_none (Nat.not_lt.mp inside)]
    exact .none

theorem Marked.kept_of_respond {host : Host σ}
    (answers : ∀ hook addr access (w : World σ), w.machine.mem.Marked →
      (host.respond hook addr access w).2.machine.mem.Marked) :
    Kept Marked host where
  mark addr marked := marked.markInitialized addr
  put value _ _ marked := (marked.store _ value).markInitialized _
  respond _ marked := answers _ _ _ _ marked

/-- Where marks are in order, the hook that an access looks for is the one that catches it. -/
theorem Marked.catch?_eq (marked : mem.Marked) {kind : AccessKind} (access : kind ≠ .exec)
    (addr : UInt16) : mem.catch? kind addr = mem.hook? kind addr := by
  unfold catch?
  by_cases hooked : (mem.state addr).hooked = true
  · rw [if_pos hooked]
  · obtain ⟨unread, unwritten⟩ := not_or.mp (mt (marked addr).mpr hooked)
    rw [if_neg hooked]
    cases kind with
    | read => exact (Option.not_isSome_iff_eq_none.mp unread).symm
    | write => exact (Option.not_isSome_iff_eq_none.mp unwritten).symm
    | exec => exact absurd rfl access

end Memory

namespace World

theorem marked_restore {w : World σ} (marked : w.machine.mem.Marked) (snapshot : Snapshot) :
    (w.restore snapshot).2.machine.mem.Marked := by
  cases passed : snapshot.images w.machine.mem.size with
  | error error =>
    rw [restore_of_error passed]
    exact marked
  | ok images =>
    -- An admitted snapshot has as many bytes as memory, so that no cell is lost.
    have admits := Snapshot.images_eq_ok_iff.mp passed
    rw [restore_of_admits admits]
    exact marked.withImage admits.memory_length admits.state_length

/-- `Evolves v w`: the world `w` comes from `v` by declarations, micro-operations, operations, restoring of any
snapshots, and changes that leave memory alone, or a new machine has taken its place in between. Hooks do such
things themselves when they are invoked. -/
inductive Evolves : World σ → World σ → Prop where
  | refl (w : World σ) : Evolves w w
  | aside {u v w : World σ} : Evolves u v → w.machine.mem = v.machine.mem → Evolves u w
  | renew {u w : World σ} {size : Nat} {fill : Fill} :
      w.machine.mem = .new size fill → Evolves u w
  | declare {u v : World σ} (declaration : Declaration) :
      Evolves u v → Evolves u (v.mapMem declaration.apply)
  | perform {u v : World σ} {host : Host σ} (op : MicroOp) :
      (∀ hook addr access w, Evolves w (host.respond hook addr access w).2) →
        Evolves u v → Evolves u (op.perform host v).2
  | operate {u v : World σ} {host : Host σ} (operation : Operation) :
      (∀ hook addr access w, Evolves w (host.respond hook addr access w).2) →
        Evolves u v → Evolves u (v.operate host operation).2
  | restore {u v : World σ} (snapshot : Snapshot) :
      Evolves u v → Evolves u (v.restore snapshot).2

theorem Evolves.marked {v w : World σ} (evolves : v.Evolves w) (marked : v.machine.mem.Marked) :
    w.machine.mem.Marked := by
  induction evolves with
  | refl => exact marked
  | aside _ same inductionHypothesis =>
    rw [same]
    exact inductionHypothesis marked
  | renew new =>
    rw [new]
    exact Memory.marked_new _ _
  | declare declaration _ inductionHypothesis => exact (inductionHypothesis marked).declare declaration
  | perform op _ _ answers inductionHypothesis =>
    exact (Memory.Marked.kept_of_respond answers).perform op (inductionHypothesis marked)
  | operate operation _ _ answers inductionHypothesis =>
    exact (Memory.Marked.kept_of_respond answers).operate operation (inductionHypothesis marked)
  | restore snapshot _ inductionHypothesis =>
    exact marked_restore (inductionHypothesis marked) snapshot

end World

namespace Invocation

/-- The invoked hook is bound to the address for such accesses. -/
def Bound (asked : Invocation σ) : Prop :=
  asked.given.machine.mem.hook? asked.access.kind asked.addr = some asked.hook

/-- An invocation that stands for an access: it names the hook, the address and the access, and the hook gets the machine
as it is. -/
structure Serves (asked : Invocation σ) (w : World σ) (hook : Nat) (addr : UInt16)
    (access : Access) : Prop where
  hook_eq : asked.hook = hook
  addr_eq : asked.addr = addr
  access_eq : asked.access = access
  given_eq : asked.given.machine = w.machine

theorem serves_invocation (w : World σ) (hook : Nat) (addr : UInt16) (access : Access) :
    (w.invocation hook addr access).Serves w hook addr access :=
  ⟨rfl, rfl, rfl, World.machine_meter w _⟩

/-- `asked.Yields host byte w`: what comes of an invocation is the byte and the world `w`. This is the answer of the hook
and the world as the hook leaves it. Where the hook answers with an error, the byte is the stored one; and if the fault
slot is free, the error is in it, at the address of the access. A fault that is held already stays. -/
inductive Yields (host : Host σ) (asked : Invocation σ) : UInt8 → World σ → Prop where
  | accepted {value : UInt8} {v : World σ} :
      asked.answer host = (.ok value, v) → Yields host asked value v
  | recorded {kind : FaultKind} {v : World σ} :
      asked.answer host = (.error kind, v) → v.machine.slot.fault = none →
        Yields host asked (v.machine.mem.raw asked.addr)
          { v with machine := { v.machine with slot := ⟨some ⟨kind, asked.addr⟩⟩ } }
  | dropped {kind : FaultKind} {fault : Fault} {v : World σ} :
      asked.answer host = (.error kind, v) → v.machine.slot.fault = some fault →
        Yields host asked (v.machine.mem.raw asked.addr) v

theorem Yields.eq_of_ok {host : Host σ} {asked : Invocation σ} {byte value : UInt8} {v w : World σ}
    (yields : asked.Yields host byte w) (accepts : asked.answer host = (.ok value, v)) :
    byte = value ∧ w = v := by
  cases yields with
  | accepted answered =>
    rw [accepts] at answered
    cases answered
    exact ⟨rfl, rfl⟩
  | recorded answered | dropped answered =>
    rw [accepts] at answered
    cases answered

theorem Yields.fault_of_error {host : Host σ} {asked : Invocation σ} {byte : UInt8} {kind : FaultKind}
    {v w : World σ} (yields : asked.Yields host byte w)
    (refuses : asked.answer host = (.error kind, v)) (free : v.machine.slot.fault = none) :
    w.machine.slot.fault = some ⟨kind, asked.addr⟩ := by
  cases yields with
  | accepted answered =>
    rw [refuses] at answered
    cases answered
  | recorded answered =>
    rw [refuses] at answered
    cases answered
    rfl
  | dropped answered held =>
    rw [refuses] at answered
    cases answered
    rw [free] at held
    cases held

theorem yields_settled (host : Host σ) (asked : Invocation σ) :
    asked.Yields host (asked.byte host) (asked.settled host) := by
  unfold byte settled
  cases answered : asked.answer host with
  | mk answer v =>
    cases answer with
    | ok value => exact .accepted answered
    | error kind =>
      cases slot : v.machine.slot.fault with
      | none =>
        have recorded : v.raise kind asked.addr =
            { v with machine := { v.machine with slot := ⟨some ⟨kind, asked.addr⟩⟩ } } := by
          simp only [World.raise, FaultSlot.record, slot]
        simp only [recorded]
        exact .recorded answered slot
      | some fault =>
        have dropped : v.raise kind asked.addr = v := by
          simp only [World.raise, FaultSlot.record, slot]
        simp only [dropped]
        exact .dropped answered slot

theorem bound_invocation {w : World σ} {hook : Nat} {addr : UInt16} (access : Access)
    (bound : w.machine.mem.hook? access.kind addr = some hook) :
    (w.invocation hook addr access).Bound := by
  unfold Bound World.invocation
  rw [World.machine_meter]
  exact bound

end Invocation

theorem Memory.hook?_of_catch? {mem : Memory} {kind : AccessKind} {addr : UInt16} {hook : Nat}
    (caught : mem.catch? kind addr = some hook) : mem.hook? kind addr = some hook :=
  (Option.ite_none_right_eq_some.mp caught).2

theorem MicroOp.bound_of_invocation? {op : MicroOp} {w : World σ} {asked : Invocation σ}
    (invoked : op.invocation? w = some asked) : asked.Bound ∧ asked.access ≠ .exec := by
  obtain ⟨hook, addr, access, v, notExec, same, caught, rfl⟩ := exists_of_invocation? invoked
  refine ⟨?_, notExec⟩
  apply Invocation.bound_invocation
  rcases same with rfl | rfl <;> exact Memory.hook?_of_catch? caught

theorem Micro.bound_of_mem_invocations (host : Host σ) {α : Type} (program : Micro α)
    {w : World σ} {asked : Invocation σ} (called : asked ∈ program.invocations host w) :
    asked.Bound ∧ asked.access ≠ .exec := by
  induction program generalizing w with
  | done result => cases called
  | step op next inductionHypothesis =>
    rw [invocations_step] at called
    rcases List.mem_append.mp called with here | later
    · exact op.bound_of_invocation? (Option.mem_toList.mp here)
    · exact inductionHypothesis _ later

namespace World

theorem bound_of_mem_windowInvocations (host : Host σ) {w : World σ} {asked : Invocation σ}
    (called : asked ∈ w.windowInvocations host) :
    asked.Bound ∧
      (w.machine.mem.hook? .exec w.machine.regs.pc = none → asked.access ≠ .exec) := by
  unfold windowInvocations at called
  by_cases ended : (w.machine.limitReached || w.machine.atSentinel) = true
  · rw [if_pos ended] at called
    cases called
  · rw [if_neg ended] at called
    dsimp only at called
    cases found : w.machine.mem.hook? .exec w.machine.regs.pc with
    | some hook =>
      rw [found] at called
      refine ⟨?_, fun unbound => by cases unbound⟩
      rcases List.mem_cons.mp called with rfl | later
      · exact Invocation.bound_invocation (w := w.enter w.machine.regs.pc) .exec found
      · exact (Micro.bound_of_mem_invocations host _ later).1
    | none =>
      rw [found] at called
      rcases List.mem_append.mp called with fetching | working
      · exact (Micro.bound_of_mem_invocations host _ fetching).imp_right fun other _ => other
      · exact (Micro.bound_of_mem_invocations host _ working).imp_right fun other _ => other

/-- Hooks mediate everything in a world: what a host that keeps a log sees of reads, fetches, writes and windows. -/
structure Mediated (host : Host σ) (w : World σ) : Prop where
  /-- A read or fetch where a read hook is bound is one invocation of it. -/
  read {addr : UInt16} {hook : Nat} : w.machine.mem.hook? .read addr = some hook →
    ∃ (asked : Invocation σ) (byte : UInt8) (v : World σ),
      asked.Serves w hook addr .read ∧ asked.Yields host byte v ∧
      ∀ log : List (Invocation σ),
        (w.logging log).read host.recorded addr = (byte, v.logging (log ++ [asked])) ∧
          (w.logging log).fetch host.recorded addr = (byte, v.logging (log ++ [asked]))
  /-- A write where a write hook is bound is one invocation of it. -/
  write {addr : UInt16} {hook : Nat} (value : UInt8) :
    w.machine.mem.hook? .write addr = some hook →
      ∃ (asked : Invocation σ) (byte : UInt8) (v : World σ),
        asked.Serves w hook addr (.write value) ∧ asked.Yields host byte v ∧
        ∀ log : List (Invocation σ),
          (w.logging log).write host.recorded addr value = v.logging (log ++ [asked])
  /-- A window at an exec hook is an invocation of it, and then microcode that fetches nothing. -/
  exec {hook : Nat} : w.machine.limitReached = false → w.machine.atSentinel = false →
    w.machine.mem.hook? .exec w.machine.regs.pc = some hook →
      ∃ (asked : Invocation σ) (byte : UInt8) (v : World σ),
        asked.Serves (w.enter w.machine.regs.pc) hook w.machine.regs.pc .exec ∧
        asked.Yields host byte v ∧
        ((asked.continuation host).Uses fun op => ∀ addr, op ≠ .fetch addr) ∧
        ∀ log : List (Invocation σ),
          (w.logging log).window host.recorded =
            ((asked.continuation host).run host.recorded (v.logging (log ++ [asked]))).2
  /-- A read or fetch where no read hook is bound invokes nothing. -/
  unread {addr : UInt16} : w.machine.mem.hook? .read addr = none →
    ∀ log : List (Invocation σ),
      (w.logging log).read host.recorded addr =
          ((w.read host addr).1, (w.read host addr).2.logging log) ∧
        (w.logging log).fetch host.recorded addr =
          ((w.fetch host addr).1, (w.fetch host addr).2.logging log)
  /-- A write where no write hook is bound invokes nothing. -/
  unwritten {addr : UInt16} (value : UInt8) : w.machine.mem.hook? .write addr = none →
    ∀ log : List (Invocation σ),
      (w.logging log).write host.recorded addr value = (w.write host addr value).logging log
  /-- A window invokes bound hooks only, and exec hooks only where one is bound to the program counter. -/
  window (log : List (Invocation σ)) :
    ∃ called : List (Invocation σ),
      (w.logging log).window host.recorded = (w.window host).logging (log ++ called) ∧
      ∀ asked ∈ called, asked.Bound ∧
        (w.machine.mem.hook? .exec w.machine.regs.pc = none → asked.access ≠ .exec)

/-- Whatever has been done to a new machine, hooks mediate everything in it. -/
theorem mediated_of_evolves {start w : World σ} {size : Nat} {fill : Fill}
    (new : start.machine.mem = .new size fill) (evolves : start.Evolves w) (host : Host σ) :
    w.Mediated host := by
  have marked : w.machine.mem.Marked := evolves.marked (new ▸ Memory.marked_new size fill)
  have readCatch (addr : UInt16) : w.machine.mem.catch? .read addr = w.machine.mem.hook? .read addr :=
    marked.catch?_eq AccessKind.noConfusion addr
  have writeCatch (addr : UInt16) :
      w.machine.mem.catch? .write addr = w.machine.mem.hook? .write addr :=
    marked.catch?_eq AccessKind.noConfusion addr
  refine ⟨?read, ?write, ?exec, ?unread, ?unwritten, ?window⟩
  case read =>
    intro addr hook bound
    have caught := (readCatch addr).trans bound
    refine ⟨w.invocation hook addr .read, _, _, Invocation.serves_invocation w hook addr .read,
      Invocation.yields_settled host _, ?_⟩
    intro log
    obtain ⟨settled, byte⟩ := w.settled_logging host hook addr .read log
    have reads (undefined uninitialized : FaultKind) :=
      readAs_of_caught (w := w.logging log) host.recorded undefined uninitialized caught
    rw [settled, byte] at reads
    exact ⟨reads _ _, reads _ _⟩
  case write =>
    intro addr hook value bound
    have caught := (writeCatch addr).trans bound
    have serves := Invocation.serves_invocation (w.noteStore true) hook addr (.write value)
    refine ⟨(w.noteStore true).invocation hook addr (.write value), _, _,
      ⟨serves.hook_eq, serves.addr_eq, serves.access_eq, serves.given_eq⟩,
      Invocation.yields_settled host _, ?_⟩
    intro log
    rw [write_of_caught (w := w.logging log) host.recorded value caught]
    exact ((w.noteStore true).settled_logging host hook addr (.write value) log).1
  case exec =>
    intro hook limit sentinel bound
    have going : ¬(w.machine.limitReached || w.machine.atSentinel) = true := by
      simp [limit, sentinel]
    let asked := (w.enter w.machine.regs.pc).invocation hook w.machine.regs.pc .exec
    have fetchless : Micro.returnFromSubroutine.Uses fun op => ∀ addr, op ≠ .fetch addr := by
      simp [Micro.returnFromSubroutine, Micro.pullWord, Micro.pull]
    refine ⟨asked, _, _, Invocation.serves_invocation _ hook _ .exec,
      Invocation.yields_settled host asked, Invocation.continuation_uses host asked fetchless, ?_⟩
    intro log
    calc (w.logging log).window host.recorded
        = ((w.enter w.machine.regs.pc).logging log).runHook host.recorded hook
            w.machine.regs.pc := window_of_hook (w := w.logging log) going bound
      _ = ((w.enter w.machine.regs.pc).runHook host hook w.machine.regs.pc).logging
            (log ++ asked :: (asked.continuation host).invocations host (asked.settled host)) :=
          runHook_logging host hook w.machine.regs.pc log _
      _ = ((asked.continuation host).run host.recorded
            ((asked.settled host).logging (log ++ [asked]))).2 := by
          rw [runHook_eq, Micro.run_logging, List.append_assoc]
          rfl
  case unread =>
    intro addr unbound log
    have uncaught := (readCatch addr).trans unbound
    have silent : (MicroOp.load addr).invocation? w = none := by
      simp only [MicroOp.invocation?, uncaught, Option.map_none]
    have reads (undefined uninitialized : FaultKind) :=
      w.readAs_logging host undefined uninitialized addr log
    rw [silent, Option.toList_none, List.append_nil] at reads
    exact ⟨reads _ _, reads _ _⟩
  case unwritten =>
    intro addr value unbound log
    have uncaught := (writeCatch addr).trans unbound
    have silent : (MicroOp.store addr value).invocation? w = none := by
      simp only [MicroOp.invocation?, uncaught, Option.map_none]
    rw [write_logging, silent, Option.toList_none, List.append_nil]
  case window =>
    intro log
    exact ⟨w.windowInvocations host, w.window_logging host log,
      fun asked called => bound_of_mem_windowInvocations host called⟩

/-- A host that answers reads with 0x2A and refuses everything else. -/
def gatekeeper : Host Unit where
  respond _ _ access w := (if access = .read then .ok 0x2A else .error .user, w)

def unguarded : World Unit :=
  ofSettings { memSize := 4 } {} ()

/-- Hooks on write-protected cells that are then declared again, as never-written RAM. -/
def guarded : World Unit :=
  (((unguarded.mapMem (Declaration.rom 0 [1, 2]).apply).mapMem
    (Declaration.bind .read 0 2 7).apply).mapMem (Declaration.bind .write 0 2 8).apply).mapMem
      (Declaration.ram 0 4 false).apply

/-- The cells are those of a machine without hooks, which have no marks; but reading still comes to its hook, and so does
writing, which is refused. -/
theorem guarded_mediated_when_restored :
    let w := (guarded.restore (.ofMachine "id" "name" {} unguarded.machine)).2
    (∃ (asked : Invocation Unit) (v : World Unit), asked.hook = 7 ∧ asked.addr = 1 ∧
        (w.logging []).read gatekeeper.recorded 1 = (0x2A, v.logging [asked])) ∧
      ∃ (asked : Invocation Unit) (v : World Unit), asked.hook = 8 ∧ asked.addr = 1 ∧
        v.machine.slot.fault = some ⟨.user, 1⟩ ∧
        (w.logging []).write gatekeeper.recorded 1 5 = v.logging [asked] := by
  have new : unguarded.machine.mem = .new 4 .zero := rfl
  have declared : unguarded.Evolves guarded :=
    .declare (.ram 0 4 false) (.declare (.bind .write 0 2 8) (.declare (.bind .read 0 2 7)
      (.declare (.rom 0 [1, 2]) (.refl _))))
  have mediated := mediated_of_evolves new
    (declared.restore (.ofMachine "id" "name" {} unguarded.machine)) gatekeeper
  have readBound : (guarded.restore
      (.ofMachine "id" "name" {} unguarded.machine)).2.machine.mem.hook? .read 1 = some 7 := by
    rw [mem_restore_ofMachine]
    decide +kernel
  have writeBound : (guarded.restore
      (.ofMachine "id" "name" {} unguarded.machine)).2.machine.mem.hook? .write 1 = some 8 := by
    rw [mem_restore_ofMachine]
    decide +kernel
  have answer (asked : Invocation Unit) : asked.answer gatekeeper =
      (if asked.access = .read then .ok 0x2A else .error .user, asked.given) := rfl
  refine ⟨?_, ?_⟩
  · obtain ⟨asked, byte, v, serves, yields, seen⟩ := mediated.read readBound
    have accepts : asked.answer gatekeeper = (.ok 0x2A, asked.given) := by
      rw [answer, if_pos serves.access_eq]
    obtain ⟨rfl, -⟩ := yields.eq_of_ok accepts
    exact ⟨asked, v, serves.hook_eq, serves.addr_eq, (seen []).1⟩
  · obtain ⟨asked, byte, v, serves, yields, seen⟩ := mediated.write 5 writeBound
    have refuses : asked.answer gatekeeper = (.error .user, asked.given) := by
      rw [answer, serves.access_eq]
      rfl
    have free : asked.given.machine.slot.fault = none := by
      rw [serves.given_eq, slot_restore_of_empty _ rfl]
    have fault := yields.fault_of_error refuses free
    rw [serves.addr_eq] at fault
    exact ⟨asked, v, serves.hook_eq, serves.addr_eq, fault, seen []⟩

end World

end Mos6502
