import Mos6502.Proofs.ProfileSample
import Mos6502.Proofs.AccessTrace
import Mos6502.Proofs.Bare.NextInstruction
import Mos6502.Proofs.Word
import Mos6502.Monitor.Perform

/-!
# Listings and execution

A listing shows the instruction at an address as memory has it, without touching anything; a step decodes the
instruction at the program counter for itself. As long as nothing intervenes, neither the cycle limit nor the end of a
call nor a hook, the step does what the listing says.
-/

namespace Mos6502

variable {σ : Type}

namespace Instruction

theorem mem_addresses {instruction : Instruction} (addr : UInt16) {i : Nat}
    (below : i < instruction.length) : addr + UInt16.ofNat i ∈ instruction.addresses addr :=
  List.mem_map.mpr ⟨i, List.mem_range.mpr below, rfl⟩

theorem self_mem_addresses (instruction : Instruction) (addr : UInt16) :
    addr ∈ instruction.addresses addr := by
  have positive : 0 < instruction.length := by
    rcases instruction.length_cases with one | two | three <;> omega
  simpa using instruction.mem_addresses addr positive

theorem mode_of_usesStack {opcode : UInt8} (uses : (decode opcode).mnemonic.usesStack = true) :
    (decode opcode).mode = .implied ∨ (decode opcode).mnemonic = .jsr := by
  have stack : ∀ entry ∈ documented, entry.2.mnemonic.usesStack = true →
      entry.2.mode = .implied ∨ entry.2.mnemonic = .jsr := by
    decide +kernel
  exact decode_induction (P := fun instruction => instruction.mnemonic.usesStack = true →
    instruction.mode = .implied ∨ instruction.mnemonic = .jsr) stack (by decide) opcode uses

end Instruction

theorem Machine.mem_noteFetched {addresses : List UInt16} {m : Machine}
    (written : ∀ addr ∈ addresses, (m.mem.state addr).uninitialized = false) :
    (m.noteFetched addresses).mem = m.mem := by
  induction addresses generalizing m with
  | nil => rfl
  | cons addr rest inductionHypothesis =>
    have here : (m.noteRead .executeUndefined .executeUninitialized addr).mem = m.mem := by
      simp [noteRead, written addr List.mem_cons_self, apply_ite Machine.mem, raise]
    have later := inductionHypothesis (m := m.noteRead .executeUndefined .executeUninitialized addr)
      (by simpa [here] using fun other member => written other (List.mem_cons_of_mem _ member))
    exact later.trans here

namespace Micro

theorem accesses_fetchInstruction (host : Host σ) {addr : UInt16} {w : World σ}
    {instruction : Instruction}
    (described : Instruction.decode (w.machine.mem.raw addr) = instruction)
    (unbound : w.machine.mem.hook? .read addr = none) :
    (fetchInstruction addr).accesses host w = (instruction.addresses addr).map (.read, ·) := by
  have passes : w.machine.mem.Passes (MicroOp.fetch addr).access?.toList := by
    simpa [Memory.Passes, MicroOp.access?] using unbound
  have opcode : ((fetch addr).run host w).1 = w.machine.mem.raw addr :=
    MicroOp.fst_perform_of_passes host passes fun _ => MicroOp.noConfusion
  unfold fetchInstruction
  rw [accesses_bind, opcode, described]
  rcases instruction.length_cases with one | two | three
  · simp [one, Instruction.addresses]
  · simp [two, Instruction.addresses, List.range_succ]
  · simp [three, Instruction.addresses, List.range_succ]

end Micro

namespace Micro

theorem pc_branchIf (flag : Flag) (value : Bool) (target : UInt16) (m : Machine) :
    ((branchIf flag value (.branch target)).exec m).2.regs.pc =
      if m.regs.status.get flag = value then target else m.regs.pc := by
  have read : (Micro.flag flag).exec m = (m.regs.status.get flag, m.noteFlag flag) := rfl
  have stays : (MicroOp.flag flag).Stays := trivial
  have noted : (m.noteFlag flag).regs.pc = m.regs.pc := MicroOp.pc_effect stays m
  have told (taken : Bool) (n : Machine) : (observe (.branch taken)).exec n = ((), n) := rfl
  unfold branchIf takeBranch
  simp only [exec_bind, read, told]
  by_cases taken : m.regs.status.get flag = value
  · simp only [taken, beq_self_eq_true, if_true, exec_bind]
    -- A crossed page costs more, and the target is set behind that.
    split <;> rfl
  · simp [taken, noted]

end Micro

/-- Modes that have the address of the operand in the instruction, as it is or to be indexed. -/
def AddressingMode.isDirect : AddressingMode → Bool
  | .zeroPage | .zeroPageX | .zeroPageY | .absolute | .absoluteX | .absoluteY => true
  | _ => false

/-- The address that an instruction of a direct mode goes to for `target`. Indexing from page zero stays there. -/
def AddressingMode.indexed (mode : AddressingMode) (regs : Registers) (target : UInt16) : UInt16 :=
  match mode with
  | .zeroPageX => Mos6502.zeroPage (lowByte target + regs.x)
  | .zeroPageY => Mos6502.zeroPage (lowByte target + regs.y)
  | .absoluteX => target + regs.x.toUInt16
  | .absoluteY => target + regs.y.toUInt16
  | _ => target

namespace ListingEntry

/-- The address behind a listed instruction. -/
def following (entry : ListingEntry) : UInt16 :=
  entry.addr + UInt16.ofNat entry.instruction.length

end ListingEntry

namespace Machine

/-- The machine in which the work of a listed instruction begins: its bytes are fetched, and the program counter is
behind them. -/
def facing (entry : ListingEntry) (m : Machine) : Machine :=
  ((m.enter entry.addr).noteFetched (entry.instruction.addresses entry.addr)).startAt
    entry.following

/-- Executes a listed instruction with the value of its operand bytes. -/
def follow (entry : ListingEntry) (value : UInt16) (m : Machine) : Machine :=
  ((Micro.ofInstruction entry.instruction value).exec (m.facing entry)).2

section

variable {entry : ListingEntry} (value : UInt16) (m : Machine)

theorem regs_facing : (m.facing entry).regs = { m.regs with pc := entry.following } := by
  unfold facing startAt mapRegs
  simp [regs_noteFetched, enter]

theorem current_facing : (m.facing entry).current = entry.addr :=
  current_eq ((m.enter entry.addr).fixture_noteFetched _)

theorem pc_follow_of_straight
    (straight : entry.instruction.mnemonic.isControlFlow = false ∨ entry.instruction.mnemonic = .brk)
    (documented : entry.instruction.mnemonic ≠ .undocumented) :
    (m.follow entry value).regs.pc = entry.following := by
  have stays : (Micro.ofInstruction entry.instruction value).Uses MicroOp.Stays := by
    simp [Micro.ofInstruction_eq documented, Micro.stays_resolve, Micro.stays_chargeFor,
      Micro.stays_ofMnemonic straight]
  exact Micro.pc_exec stays (m.facing entry)

theorem pc_follow_of_undocumented (undocumented : entry.instruction.mnemonic = .undocumented) :
    (m.follow entry value).regs.pc = entry.addr := by
  simp [follow, Micro.ofInstruction, undocumented, Micro.reject, mapRegs, raise, current_facing]

theorem follow_of_documented (documented : entry.instruction.mnemonic ≠ .undocumented)
    {operand : Operand}
    (located : (Micro.resolve entry.instruction.mode value).exec (m.facing entry) =
      (operand, m.facing entry)) :
    ∃ n : Machine, n.regs = (m.facing entry).regs ∧
      m.follow entry value = ((Micro.ofMnemonic entry.instruction.mnemonic operand).exec n).2 := by
  refine ⟨((Micro.chargeFor entry.instruction operand).exec (m.facing entry)).2,
    Micro.regs_chargeFor _ _ _, ?_⟩
  rw [follow, Micro.ofInstruction_eq documented, Micro.exec_bind, located, Micro.exec_bind]

theorem pc_follow_of_branch {flag : Flag} {taken : Bool}
    (condition : entry.instruction.mnemonic.branchCondition? = some (flag, taken))
    (relative : entry.instruction.mode = .relative) :
    (m.follow entry value).regs.pc =
      if m.regs.status.get flag = taken then branchTarget entry.following (lowByte value)
      else entry.following := by
  have documented := Mnemonic.documented_of_isBranch
    (Mnemonic.isBranch_of_branchCondition? condition)
  have located : (Micro.resolve entry.instruction.mode value).exec (m.facing entry) =
      (.branch (branchTarget entry.following (lowByte value)), m.facing entry) := by
    rw [relative]
    rfl
  obtain ⟨n, regs, followed⟩ := follow_of_documented value m documented located
  rw [followed, Micro.ofMnemonic_of_branchCondition? condition, Micro.pc_branchIf, regs, regs_facing]

theorem pc_follow_of_jump
    (jumps : entry.instruction.mnemonic = .jmp ∨ entry.instruction.mnemonic = .jsr)
    (absolute : entry.instruction.mode = .absolute) :
    (m.follow entry value).regs.pc = value := by
  have documented : entry.instruction.mnemonic ≠ .undocumented := by
    rcases jumps with jumps | jumps <;> simp [jumps]
  have located : (Micro.resolve entry.instruction.mode value).exec (m.facing entry) =
      (.memory value false, m.facing entry) := by
    rw [absolute]
    rfl
  obtain ⟨n, -, followed⟩ := follow_of_documented value m documented located
  rw [followed]
  rcases jumps with jumps | jumps
  · rw [jumps]
    rfl
  · rw [jumps]
    simp [Micro.ofMnemonic, Micro.jumpToSubroutine, mapRegs]

end

end Machine

section

variable (mem : Memory) (labels : Labels) (addr : UInt16)

theorem operands_inspect : (inspect mem labels addr).operands =
    (List.range ((inspect mem labels addr).instruction.length - 1)).map fun i =>
      mem.byte? (addr + UInt16.ofNat (i + 1)) := rfl

theorem target_inspect : (inspect mem labels addr).target =
    (operandValue? (inspect mem labels addr).operands).bind
      (staticTarget (inspect mem labels addr).instruction.mode addr) := rfl

theorem targetLabel_inspect : (inspect mem labels addr).targetLabel =
    (inspect mem labels addr).target.bind labels.nearest? := rfl

end

/-- A listing of readable bytes shows the instruction that the first of them tells, and the others are its operand. -/
theorem inspect_of_readable {mem : Memory} {labels : Labels} {addr : UInt16}
    (readable : ∀ other ∈ (inspect mem labels addr).instruction.addresses addr,
      (mem.byte? other).isSome = true) :
    Instruction.decode (mem.raw addr) = (inspect mem labels addr).instruction ∧
      operandValue? (inspect mem labels addr).operands =
        some (mem.operandAt addr (inspect mem labels addr).instruction) := by
  have byte (i : Nat) (below : i < (inspect mem labels addr).instruction.length) :
      mem.byte? (addr + UInt16.ofNat i) = some (mem.raw (addr + UInt16.ofNat i)) :=
    (Memory.written_of_readable (readable _ (Instruction.mem_addresses addr below))).1
  constructor
  · have opcode : mem.byte? addr = some (mem.raw addr) :=
      (Memory.written_of_readable (readable _ (Instruction.self_mem_addresses _ addr))).1
    simp [inspect, opcode]
  · rw [operands_inspect]
    unfold Memory.operandAt
    generalize (inspect mem labels addr).instruction = instruction at *
    rcases instruction.length_cases with one | two | three
    · simp [one, operandValue?, wordOf]
    · have low : mem.byte? (addr + 1) = some (mem.raw (addr + 1)) := byte 1 (by omega)
      simp [two, operandValue?, low]
    · have low : mem.byte? (addr + 1) = some (mem.raw (addr + 1)) := byte 1 (by omega)
      have high : mem.byte? (addr + 2) = some (mem.raw (addr + 2)) := byte 2 (by omega)
      simp [three, operandValue?, low, high, List.range_succ]

namespace Micro

theorem isBlank_chargeFor (host : Host σ) (instruction : Instruction) (operand : Operand)
    (addr : UInt16) (w : World σ) :
    ((chargeFor instruction operand).run host w).2.isBlank addr = w.isBlank addr := by
  unfold chargeFor
  rw [run_bind]
  split <;> rfl

/-- The operand of a direct mode is found without an access, and then it is accessed where the index leads. -/
theorem accesses_ofInstruction (host : Host σ) {instruction : Instruction}
    (documented : instruction.mnemonic ≠ .undocumented)
    (stackless : instruction.mnemonic.usesStack = false)
    (direct : instruction.mode.isDirect = true) {value : UInt16}
    (short : instruction.mode = .zeroPage → zeroPage (lowByte value) = value) (w : World σ) :
    (ofInstruction instruction value).accesses host w =
      (instruction.mnemonic.operandAccesses
        (w.isBlank (instruction.mode.indexed w.machine.regs value))).map
          (·, instruction.mode.indexed w.machine.regs value) := by
  have located : ∃ pageCross, (resolve instruction.mode value).run host w =
      (.memory (instruction.mode.indexed w.machine.regs value) pageCross, w) := by
    cases mode : instruction.mode with
    | zeroPage =>
      -- The operand is cut down to page zero even without an index, which the target is in already.
      exact ⟨false, congrArg (fun addr => (Operand.memory addr false, w)) (short mode)⟩
    | zeroPageX | zeroPageY | absolute | absoluteX | absoluteY => exact ⟨_, rfl⟩
    | _ => simp [mode, AddressingMode.isDirect] at direct
  have resolved : (resolve instruction.mode value).accesses host w = [] := by
    cases mode : instruction.mode with
    | zeroPage | zeroPageX | zeroPageY | absolute | absoluteX | absoluteY => rfl
    | _ => simp [mode, AddressingMode.isDirect] at direct
  have charged (operand : Operand) (v : World σ) :
      (chargeFor instruction operand).accesses host v = [] := by
    simp [chargeFor, accesses_of_internal, MicroOp.Internal, MicroOp.access?]
  obtain ⟨pageCross, located⟩ := located
  rw [ofInstruction_eq documented, accesses_bind, resolved, located, accesses_bind, charged,
    accesses_ofMnemonic host stackless, isBlank_chargeFor]
  rfl

end Micro

namespace World

/-- What a listing shows at the program counter. -/
def listed (w : World σ) : ListingEntry :=
  inspect w.machine.mem w.instruments.labels w.machine.regs.pc

/-- The accesses that the next instruction makes once it is fetched. -/
def dataAccesses (host : Host σ) (w : World σ) : List (AccessKind × UInt16) :=
  ((w.enter w.machine.regs.pc).work host w.machine.regs.pc).accesses host
    ((w.enter w.machine.regs.pc).poised host w.machine.regs.pc)

/-- Nothing intervenes in the next step: neither the limit nor the end of a call nor an exec hook takes its place, the
bytes of the listed instruction are readable and have no read hooks, and its work comes to no hook. -/
structure InPlainView (host : Host σ) (w : World σ) : Prop where
  unlimited : w.machine.limitReached = false
  away : w.machine.atSentinel = false
  unbound : w.machine.mem.hook? .exec w.machine.regs.pc = none
  readable : ∀ addr ∈ w.listed.instruction.addresses w.machine.regs.pc,
    (w.machine.mem.byte? addr).isSome = true
  unwatched : ∀ addr ∈ w.listed.instruction.addresses w.machine.regs.pc,
    w.machine.mem.hook? .read addr = none
  passes : w.machine.mem.Passes (w.dataAccesses host)

section

variable {host : Host σ} {w : World σ}

/-- Bytes without read hooks are fetched as they are. -/
theorem fetched_of_unwatched {pc : UInt16} {instruction : Instruction}
    (described : Instruction.decode (w.machine.mem.raw pc) = instruction)
    (unwatched : ∀ addr ∈ instruction.addresses pc, w.machine.mem.hook? .read addr = none) :
    (w.fetched host pc).1 = (instruction, w.machine.mem.operandAt pc instruction) ∧
      (w.fetched host pc).2.machine = w.machine.noteFetched (instruction.addresses pc) := by
  -- Tracing comes before the first fetch and leaves the machine as it is, which is all that fetching looks at.
  have traced : (w.traceInstruction pc).machine = w.machine := w.machine_traceInstruction pc
  have describedToo : Instruction.decode ((w.traceInstruction pc).machine.mem.raw pc) = instruction := by
    rw [traced]
    exact described
  have unwatchedToo (addr : UInt16) (member : addr ∈ instruction.addresses pc) :
      (w.traceInstruction pc).machine.mem.hook? .read addr = none := by
    rw [traced]
    exact unwatched addr member
  have passes : (w.traceInstruction pc).machine.mem.Passes
      ((Micro.fetchInstruction pc).accesses host (w.traceInstruction pc)) := by
    rw [Micro.accesses_fetchInstruction host describedToo
      (unwatchedToo pc (instruction.self_mem_addresses pc))]
    intro access made
    obtain ⟨addr, member, rfl⟩ := List.mem_map.mp made
    exact unwatchedToo addr member
  obtain ⟨answer, machine⟩ :=
    Micro.unassisted_of_common host (Micro.common_fetchInstruction pc) _ passes
  have bare := Micro.exec_fetchInstruction describedToo
  rw [traced] at bare
  unfold World.fetched
  constructor
  · rw [answer, traced, bare]
  · rw [machine, traced, bare]

theorem InPlainView.exists_decode (view : w.InPlainView host) :
    ∃ opcode, w.listed.instruction = Instruction.decode opcode :=
  ⟨w.machine.mem.raw w.machine.regs.pc, (inspect_of_readable view.readable).1.symm⟩

/-- The value of the operand bytes of the instruction at the program counter. -/
def listedOperand (w : World σ) : UInt16 :=
  w.machine.mem.operandAt w.machine.regs.pc w.listed.instruction

theorem InPlainView.fetched (view : w.InPlainView host) :
    ((w.enter w.machine.regs.pc).fetched host w.machine.regs.pc).1 =
        (w.listed.instruction, w.listedOperand) ∧
      ((w.enter w.machine.regs.pc).fetched host w.machine.regs.pc).2.machine =
        (w.machine.enter w.machine.regs.pc).noteFetched
          (w.listed.instruction.addresses w.machine.regs.pc) :=
  fetched_of_unwatched (w := w.enter w.machine.regs.pc) (inspect_of_readable view.readable).1
    view.unwatched

theorem InPlainView.machine_poised (view : w.InPlainView host) :
    ((w.enter w.machine.regs.pc).poised host w.machine.regs.pc).machine =
      w.machine.facing w.listed := by
  obtain ⟨decoded, machine⟩ := view.fetched
  unfold poised nextAddress World.instruction
  rw [decoded, machine_clearSample, machine_mapRegs, machine]
  rfl

theorem InPlainView.mem_poised (view : w.InPlainView host) :
    ((w.enter w.machine.regs.pc).poised host w.machine.regs.pc).machine.mem = w.machine.mem := by
  rw [view.machine_poised]
  apply Machine.mem_noteFetched
  intro addr member
  exact (Memory.written_of_readable (view.readable addr member)).2

theorem InPlainView.work (view : w.InPlainView host) :
    (w.enter w.machine.regs.pc).work host w.machine.regs.pc =
      .ofInstruction w.listed.instruction w.listedOperand := by
  rw [World.work, World.instruction, view.fetched.1]

/-- The step executes the listed instruction. -/
theorem InPlainView.machine_window (view : w.InPlainView host) :
    (w.window host).machine = w.machine.follow w.listed w.listedOperand := by
  have going : ¬(w.machine.limitReached || w.machine.atSentinel) = true := by
    simp [view.unlimited, view.away]
  have passes := view.passes
  rw [dataAccesses, view.work, ← view.mem_poised] at passes
  have alone := (Micro.unassisted_ofInstruction host _ _ _ passes).2
  rw [window_of_no_hook going view.unbound, machine_runInstruction, worked, view.work, alone,
    view.machine_poised]
  rfl

theorem InPlainView.step (view : w.InPlainView host) :
    (w.step host).1 = (w.machine.follow w.listed w.listedOperand).settle.1 ∧
      (w.step host).2.machine = (w.machine.follow w.listed w.listedOperand).settle.2 := by
  rw [← view.machine_window]
  exact (w.window host).settle_bare

/-- The listing gives the target that goes with the operand bytes. -/
theorem InPlainView.target (view : w.InPlainView host) :
    w.listed.target =
      staticTarget w.listed.instruction.mode w.machine.regs.pc w.listedOperand := by
  have value : operandValue? w.listed.operands = some w.listedOperand :=
    (inspect_of_readable view.readable).2
  rw [listed, target_inspect, ← listed, value]
  rfl

end

/-- What the listing at the program counter tells about the next step. -/
structure Follows (host : Host σ) (w : World σ) : Prop where
  /-- The listed instruction is executed with the listed operand bytes. -/
  executes : ∃ value, operandValue? w.listed.operands = some value ∧
    ((w.enter w.machine.regs.pc).fetched host w.machine.regs.pc).1 = (w.listed.instruction, value) ∧
    (w.step host).1 = (w.machine.follow w.listed value).settle.1 ∧
    (w.step host).2.machine = (w.machine.follow w.listed value).settle.2
  goesOn : w.listed.instruction.mnemonic ≠ .undocumented →
    w.listed.instruction.mnemonic.isControlFlow = false ∨ w.listed.instruction.mnemonic = .brk →
    (w.step host).2.machine.regs.pc = w.listed.following
  branches : ∀ {flag : Flag} {value : Bool},
    w.listed.instruction.mnemonic.branchCondition? = some (flag, value) →
    (w.machine.regs.status.get flag = value →
      w.listed.target = some (w.step host).2.machine.regs.pc) ∧
    (w.machine.regs.status.get flag ≠ value →
      (w.step host).2.machine.regs.pc = w.listed.following)
  jumps : w.listed.instruction.mnemonic = .jmp ∧ w.listed.instruction.mode = .absolute ∨
      w.listed.instruction.mnemonic = .jsr →
    w.listed.target = some (w.step host).2.machine.regs.pc
  stays : w.listed.instruction.mnemonic = .undocumented →
    (w.step host).2.machine.regs.pc = w.machine.regs.pc
  /-- JSR has its target in an absolute operand, but goes to the stack only. -/
  accesses : w.listed.instruction.mode.isDirect = true → w.listed.instruction.mnemonic ≠ .jsr →
    ∃ target, w.listed.target = some target ∧
      w.dataAccesses host =
        (w.listed.instruction.mnemonic.operandAccesses
          (w.isBlank (w.listed.instruction.mode.indexed w.machine.regs target))).map
            (·, w.listed.instruction.mode.indexed w.machine.regs target)

namespace InPlainView

variable {host : Host σ} {w : World σ} (view : w.InPlainView host)

include view

theorem pc_step :
    (w.step host).2.machine.regs.pc = (w.machine.follow w.listed w.listedOperand).regs.pc := by
  rw [view.step.2]
  rfl

theorem pc_of_branch {flag : Flag} {value : Bool}
    (condition : w.listed.instruction.mnemonic.branchCondition? = some (flag, value)) :
    (w.machine.regs.status.get flag = value →
        w.listed.target = some (w.step host).2.machine.regs.pc) ∧
      (w.machine.regs.status.get flag ≠ value →
        (w.step host).2.machine.regs.pc = w.listed.following) := by
  have relative : w.listed.instruction.mode = .relative := by
    have branches := Mnemonic.isBranch_of_branchCondition? condition
    obtain ⟨opcode, decoded⟩ := view.exists_decode
    rw [decoded] at branches ⊢
    exact Instruction.mode_of_isBranch branches
  have followed := Machine.pc_follow_of_branch w.listedOperand w.machine condition relative
  rw [view.pc_step, followed, view.target, relative]
  constructor
  · intro taken
    rw [if_pos taken, ListingEntry.following, Instruction.length, relative]
    rfl
  · intro untaken
    rw [if_neg untaken]

theorem pc_of_jump
    (jumps : w.listed.instruction.mnemonic = .jmp ∧ w.listed.instruction.mode = .absolute ∨
      w.listed.instruction.mnemonic = .jsr) :
    w.listed.target = some (w.step host).2.machine.regs.pc := by
  have absolute : w.listed.instruction.mode = .absolute := by
    obtain ⟨-, absolute⟩ | jsr := jumps
    · exact absolute
    · obtain ⟨opcode, decoded⟩ := view.exists_decode
      rw [decoded] at jsr ⊢
      rw [Instruction.decode_eq_jsr jsr]
  have followed := Machine.pc_follow_of_jump w.listedOperand w.machine (jumps.imp And.left id)
    absolute
  rw [view.pc_step, followed, view.target, absolute]
  rfl

theorem documented_of_direct (direct : w.listed.instruction.mode.isDirect = true) :
    w.listed.instruction.mnemonic ≠ .undocumented := by
  intro undocumented
  obtain ⟨opcode, decoded⟩ := view.exists_decode
  rw [decoded] at undocumented direct
  rw [Instruction.decode_eq_undocumented undocumented] at direct
  cases direct

theorem stackless_of_direct (direct : w.listed.instruction.mode.isDirect = true)
    (elsewhere : w.listed.instruction.mnemonic ≠ .jsr) :
    w.listed.instruction.mnemonic.usesStack = false := by
  apply eq_false_of_ne_true
  intro uses
  obtain ⟨opcode, decoded⟩ := view.exists_decode
  rw [decoded] at uses direct elsewhere
  obtain implied | jsr := Instruction.mode_of_usesStack uses
  · rw [implied] at direct
    cases direct
  · exact elsewhere jsr

theorem indexed_poised (target : UInt16) :
    w.listed.instruction.mode.indexed
        ((w.enter w.machine.regs.pc).poised host w.machine.regs.pc).machine.regs target =
      w.listed.instruction.mode.indexed w.machine.regs target := by
  rw [view.machine_poised, Machine.regs_facing]
  cases w.listed.instruction.mode <;> rfl

theorem isBlank_poised (addr : UInt16) :
    ((w.enter w.machine.regs.pc).poised host w.machine.regs.pc).isBlank addr = w.isBlank addr := by
  simp only [isBlank, view.mem_poised]

theorem dataAccesses_of_direct (direct : w.listed.instruction.mode.isDirect = true)
    (elsewhere : w.listed.instruction.mnemonic ≠ .jsr) :
    ∃ target, w.listed.target = some target ∧
      w.dataAccesses host =
        (w.listed.instruction.mnemonic.operandAccesses
          (w.isBlank (w.listed.instruction.mode.indexed w.machine.regs target))).map
            (·, w.listed.instruction.mode.indexed w.machine.regs target) := by
  have short (zeroPaged : w.listed.instruction.mode = .zeroPage) :
      zeroPage (lowByte w.listedOperand) = w.listedOperand := by
    simp only [listedOperand, Memory.operandAt, Instruction.length, zeroPaged]
    apply zeroPage_lowByte_wordOf
  have made := Micro.accesses_ofInstruction host (view.documented_of_direct direct)
    (view.stackless_of_direct direct elsewhere) direct short
    ((w.enter w.machine.regs.pc).poised host w.machine.regs.pc)
  refine ⟨w.listedOperand, ?_, ?_⟩
  · rw [view.target]
    cases mode : w.listed.instruction.mode with
    | zeroPage | zeroPageX | zeroPageY | absolute | absoluteX | absoluteY => rfl
    | _ => simp [mode, AddressingMode.isDirect] at direct
  · rw [dataAccesses, view.work, made, view.indexed_poised, view.isBlank_poised]

end InPlainView

/-- A step that nothing intervenes in does what the listing at its program counter says. To show a listing changes
nothing. -/
theorem step_follows_listing (host : Host σ) {w : World σ} (view : w.InPlainView host) :
    w.Follows host ∧
      ∀ (answering : Host Monitor.Session) (addr : UInt16) (session : World Monitor.Session),
        Monitor.perform answering (.inspect addr) session =
          (.entry (inspect session.machine.mem session.instruments.labels addr), session) := by
  constructor
  · constructor
    case executes =>
      exact ⟨w.listedOperand, (inspect_of_readable view.readable).2, view.fetched.1, view.step⟩
    case goesOn =>
      intro documented straight
      apply view.pc_step.trans
      exact Machine.pc_follow_of_straight w.listedOperand w.machine straight documented
    case branches => exact view.pc_of_branch
    case jumps => exact view.pc_of_jump
    case stays =>
      intro undocumented
      apply view.pc_step.trans
      exact Machine.pc_follow_of_undocumented w.listedOperand w.machine undocumented
    case accesses => exact view.dataAccesses_of_direct
  · intro answering addr session
    rfl

/-- STA $F8,X with $10 in X, and a write hook at $09. -/
def wrappedStore : World Unit where
  machine :=
    { mem := ((Memory.new 16 .zero).declareData 0 [0x95, 0xF8]).bind .write 9 1 0
      regs := { x := 0x10 } }
  host := ()

theorem wrappedStore_follows_listing :
    wrappedStore.InPlainView CommandLine.hooklessHost ∧
      wrappedStore.Follows CommandLine.hooklessHost ∧
      (wrappedStore.step CommandLine.hooklessHost).2.machine.regs.pc = 2 ∧
      ∃ target, wrappedStore.listed.target = some target ∧
        wrappedStore.dataAccesses CommandLine.hooklessHost =
          [(.write, zeroPage (lowByte target + 0x10))] := by
  have listed : wrappedStore.listed.instruction = ⟨.sta, .zeroPageX, 4⟩ := by
    decide +kernel
  have stored : wrappedStore.dataAccesses CommandLine.hooklessHost = [(.write, 0x0008)] := by
    decide +kernel
  have view : wrappedStore.InPlainView CommandLine.hooklessHost := by
    constructor
    case unlimited | away | unbound => decide
    case readable | unwatched =>
      have bytes :
          Instruction.addresses ⟨.sta, .zeroPageX, 4⟩ wrappedStore.machine.regs.pc = [0, 1] := rfl
      rw [listed, bytes, List.forall_mem_cons, List.forall_mem_singleton]
      decide +kernel
    case passes =>
      rw [stored, Memory.Passes, List.forall_mem_singleton]
      decide +kernel
  have follows := (step_follows_listing CommandLine.hooklessHost view).1
  refine ⟨view, follows, ?_, ?_⟩
  · apply (follows.goesOn (by simp [listed]) (.inl (by rw [listed]; rfl))).trans
    rw [ListingEntry.following, listed]
    rfl
  · obtain ⟨target, shown, accesses⟩ := follows.accesses (by rw [listed]; rfl) (by simp [listed])
    refine ⟨target, shown, accesses.trans ?_⟩
    rw [listed]
    rfl

end World

end Mos6502
