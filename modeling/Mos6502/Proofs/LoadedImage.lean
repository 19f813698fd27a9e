import Mos6502.Proofs.Declarations
import Mos6502.Proofs.Observers
import Mos6502.Proofs.OrdinaryMemory
import Mos6502.Proofs.ProtectedMemory

/-!
# Runs of a loaded image

Where all of memory is declared and no hook is bound, an instruction cannot come to undeclared memory, and it cannot make
any: accesses change a cell only as its protection allows, and protection keeps every cell declared. The program of the
command line declares all of memory before it lays the image over it, so that this holds from the start of its call.
-/

namespace Mos6502

variable {σ α β : Type}

/-- No hooks, and no undeclared cell at any address. -/
structure Memory.Declared (mem : Memory) : Prop where
  free : mem.hooks = []
  declared (addr : UInt16) : (mem.state addr).undefined = false

namespace Memory.Declared

variable {mem : Memory}

theorem of_protects {after : Memory} (declared : mem.Declared)
    (protects : mem.Cellwise Cell.Protects after) : after.Declared where
  free := protects.hooks.trans declared.free
  declared addr := by
    obtain ⟨cell, found⟩ := cell?_of_defined (declared.declared addr)
    have inside : addr.toNat < after.size := by
      rw [protects.size]
      exact (Array.getElem?_eq_some_iff.mp found).1
    have foundAfter : after.cell? addr = some after.cells[addr.toNat] := Array.getElem?_eq_getElem inside
    obtain ⟨earlier, foundEarlier, kept⟩ := protects.exists_cell? foundAfter
    rw [state_of_cell? foundAfter, kept.undefined, ← state_of_cell? foundEarlier]
    exact declared.declared addr

theorem kept (host : Host σ) : Kept Memory.Declared host where
  mark addr declared :=
    declared.of_protects (cellwise_modify .refl fun cell _ => cell.protects_asInitialized)
  put value writable known declared :=
    have protects := (kept_protects declared.free host).put value writable known (.refl .refl _)
    declared.of_protects protects
  respond bound declared := by
    rw [hook?_of_hooks_eq_nil declared.free] at bound
    cases bound

end Memory.Declared

/-- The kinds of fault that a program can come to where all of memory is declared. -/
def FaultKind.ofDeclared : List FaultKind :=
  [.executeUninitialized, .readUninitialized, .writeRom, .brk, .illegal, .callReturn, .cycleLimit]

/-- A micro-operation that raises of its own accord only the faults that programs come to anywhere. -/
def MicroOp.Plainspoken : MicroOp → Prop
  | .raise kind => kind ∈ FaultKind.ofProgram
  | _ => True

theorem FaultKind.ofProgram_subset : ofProgram ⊆ ofDeclared := by decide

namespace Micro

theorem plainspoken_of_common {program : Micro α} (common : program.Uses MicroOp.Common) :
    program.Uses MicroOp.Plainspoken := by
  apply common.imp
  intro op common
  cases op with
  | raise kind => exact common.elim
  | _ => trivial

theorem plainspoken_ofInstruction (instruction : Instruction) (value : UInt16) :
    (ofInstruction instruction value).Uses MicroOp.Plainspoken := by
  apply (uses_ofInstruction instruction value).imp
  intro op part
  rcases part with works | rfl | ⟨-, rfl | rfl⟩
  · cases op with
    | raise kind =>
      obtain ⟨-, rfl⟩ := works
      exact FaultKind.brk_mem_ofProgram
    | _ => trivial
  · trivial
  · trivial
  · exact FaultKind.illegal_mem_ofProgram

end Micro

namespace World

variable {w : World σ}

/-- Reading reports nothing but that a cell was never written. -/
theorem readHistory_of_declared (host : Host σ) (declared : w.machine.mem.Declared)
    {kinds : List FaultKind} {uninitialized : FaultKind} (member : uninitialized ∈ kinds)
    (undefined : FaultKind) (addr : UInt16) :
    ∀ event ∈ w.readHistory host undefined uninitialized addr, event.Among kinds := by
  have unbound := Memory.hook?_of_hooks_eq_nil declared.free .read addr
  unfold readHistory
  simp only [unbound, ite_self, declared.declared, Bool.false_eq_true, if_false]
  split
  next plain => exact List.forall_mem_nil _
  next classified =>
    split
    next blank => exact SlotEvent.forall_among_raised member addr
    next written => exact List.forall_mem_nil _

/-- Writing reports nothing but that a cell is write-protected. -/
theorem writeHistory_of_declared (host : Host σ) (declared : w.machine.mem.Declared)
    {kinds : List FaultKind} (member : .writeRom ∈ kinds) (addr : UInt16) (value : UInt8) :
    ∀ event ∈ w.writeHistory host addr value, event.Among kinds := by
  have unbound := Memory.hook?_of_hooks_eq_nil declared.free .write addr
  unfold writeHistory
  simp only [unbound, ite_self, declared.declared, Bool.false_eq_true, if_false]
  split
  next plain => exact List.forall_mem_nil _
  next classified =>
    split
    next readOnly => exact SlotEvent.forall_among_raised member addr
    next writable => exact List.forall_mem_nil _

end World

variable {w : World σ}

theorem MicroOp.history_of_declared (host : Host σ) {op : MicroOp} (plainspoken : op.Plainspoken)
    (declared : w.machine.mem.Declared) :
    ∀ event ∈ op.history host w, event.Among FaultKind.ofDeclared := by
  cases op with
  | fetch addr => exact World.readHistory_of_declared host declared (by decide) .executeUndefined addr
  | load addr => exact World.readHistory_of_declared host declared (by decide) .readUndefined addr
  | store addr value => exact World.writeHistory_of_declared host declared (by decide) addr value
  | flag which =>
    change ∀ event ∈ w.flagHistory which, event.Among FaultKind.ofDeclared
    unfold World.flagHistory
    split
    next unknown => exact SlotEvent.forall_among_raised (by decide) w.machine.current
    next known => exact List.forall_mem_nil _
  | raise kind =>
    exact SlotEvent.forall_among_raised (FaultKind.ofProgram_subset plainspoken) w.machine.current
  | isBlank | register | setRegister | pc | setPc | setFlag | forget | status | setStatus | here
    | charge | observe => exact List.forall_mem_nil _

theorem Micro.history_of_declared (host : Host σ) {program : Micro α}
    (plainspoken : program.Uses MicroOp.Plainspoken) (declared : w.machine.mem.Declared) :
    ∀ event ∈ program.history host w, event.Among FaultKind.ofDeclared := by
  induction program generalizing w with
  | done result => exact List.forall_mem_nil _
  | step op next inductionHypothesis =>
    obtain ⟨here, later⟩ := plainspoken
    have stillDeclared := (Memory.Declared.kept host).perform op declared
    exact List.forall_mem_append.mpr
      ⟨op.history_of_declared host here declared,
        inductionHypothesis (op.perform host w).1 (later _) stillDeclared⟩

namespace World

theorem instructionHistory_of_declared (host : Host σ) (declared : w.machine.mem.Declared)
    (pc : UInt16) :
    ∀ event ∈ w.instructionHistory host pc, event.Among FaultKind.ofDeclared := by
  have traced : (w.traceInstruction pc).machine.mem.Declared := by
    rwa [machine_traceInstruction]
  have events := Micro.history_of_declared host (Micro.plainspoken_of_common (Micro.common_fetchInstruction pc)) traced
  have fetched := (Memory.Declared.kept host).microcode (Micro.fetchInstruction pc) traced
  unfold instructionHistory
  dsimp only
  generalize (Micro.fetchInstruction pc).run host (w.traceInstruction pc) = result at fetched
  obtain ⟨⟨instruction, value⟩, v⟩ := result
  have poised : (v.mapRegs fun regs =>
      { regs with pc := pc + UInt16.ofNat instruction.length }).clearSample.machine.mem.Declared :=
    fetched
  exact List.forall_mem_append.mpr
    ⟨events, Micro.history_of_declared host (Micro.plainspoken_ofInstruction instruction value) poised⟩

theorem windowHistory_of_declared (host : Host σ) (declared : w.machine.mem.Declared) :
    ∀ event ∈ w.windowHistory host, event.Among FaultKind.ofDeclared := by
  have unbound : (w.enter w.machine.regs.pc).machine.mem.hook? .exec w.machine.regs.pc = none :=
    Memory.hook?_of_hooks_eq_nil declared.free .exec w.machine.regs.pc
  unfold windowHistory
  dsimp only
  split
  next limit => exact SlotEvent.forall_among_raised (by decide) w.machine.regs.pc
  next below =>
    split
    next sentinel => exact SlotEvent.forall_among_raised (by decide) w.machine.regs.pc
    next away =>
      rw [unbound]
      exact instructionHistory_of_declared host (w := w.enter w.machine.regs.pc) declared _

/-- All of memory is declared, and a fault that is held is none of undeclared memory. -/
structure Sheltered (w : World σ) : Prop where
  declared : w.machine.mem.Declared
  held (fault : Fault) : w.machine.slot.fault = some fault → fault.kind ∈ FaultKind.ofDeclared

namespace Sheltered

theorem of_empty (declared : w.machine.mem.Declared) (empty : w.machine.slot = {}) :
    w.Sheltered where
  declared := declared
  held fault found := by
    rw [empty] at found
    cases found

theorem microcode (host : Host σ) (sheltered : w.Sheltered) {program : Micro α}
    (plainspoken : program.Uses MicroOp.Plainspoken) : (program.run host w).2.Sheltered where
  declared := (Memory.Declared.kept host).microcode program sheltered.declared
  held fault found := by
    rw [program.slot_run] at found
    have events := Micro.history_of_declared host plainspoken sheltered.declared
    exact FaultSlot.replay_among events sheltered.held found

theorem step (host : Host σ) (sheltered : w.Sheltered) : (w.step host).2.Sheltered := by
  apply of_empty
  · exact (Memory.Declared.kept host).step sheltered.declared
  · unfold World.step
    rw [(w.window host).settle_bare.2]
    rfl

/-- What stops a step was held before it, or raised in its window. -/
theorem step_fst (host : Host σ) (sheltered : w.Sheltered) {fault : Fault}
    (stopped : (w.step host).1 = some fault) : fault.kind ∈ FaultKind.ofDeclared := by
  rw [World.step_fst] at stopped
  have held := (Option.filter_eq_some_iff.mp stopped).1
  exact FaultSlot.replay_among (windowHistory_of_declared host sheltered.declared) sheltered.held held

theorem steps (host : Host σ) (sheltered : w.Sheltered) (bound : Nat) :
    (∀ event ∈ w.along host (windowHistory host) bound, event.Among FaultKind.ofDeclared) ∧
      ∀ fault, (w.steps host bound).1 = some fault → fault.kind ∈ FaultKind.ofDeclared := by
  induction bound generalizing w with
  | zero =>
    refine ⟨List.forall_mem_nil _, ?_⟩
    intro fault stopped
    cases stopped
  | succ bound inductionHypothesis =>
    have events := windowHistory_of_declared host sheltered.declared
    have stops (fault : Fault) : (w.step host).1 = some fault → fault.kind ∈ FaultKind.ofDeclared :=
      sheltered.step_fst host
    have stepped := sheltered.step host
    unfold World.along World.steps
    generalize w.step host = result at stops stepped
    rcases result with ⟨_ | stop, v⟩
    · obtain ⟨eventsAfter, after⟩ := inductionHypothesis stepped
      exact ⟨List.forall_mem_append.mpr ⟨events, eventsAfter⟩, after⟩
    · rw [List.append_nil]
      exact ⟨events, stops⟩

theorem run (host : Host σ) (sheltered : w.Sheltered) (bound : Nat) (addr : UInt16) :
    (∀ event ∈ w.alongRun host (windowHistory host) bound addr, event.Among FaultKind.ofDeclared) ∧
      ∀ fault, (w.run host bound addr).1 = .stopped fault → fault.kind ∈ FaultKind.ofDeclared := by
  have started : ((w.startAt addr).log (.runStarted addr)).Sheltered :=
    ⟨sheltered.declared, sheltered.held⟩
  obtain ⟨events, stops⟩ := started.steps host bound
  refine ⟨events, ?_⟩
  intro fault stopped
  rw [(run_eq_steps host bound addr w).1] at stopped
  exact stops fault (Outcome.eq_some_of_ofSteps stopped)

end Sheltered

/-- A call in declared memory raises no fault of undeclared memory, and so it ends with none. -/
theorem call_of_declared (host : Host σ) (declared : w.machine.mem.Declared) (bound : Nat)
    (addr : UInt16) :
    (∀ event ∈ w.operationHistory host (.call bound addr), event.Among FaultKind.ofDeclared) ∧
      ∀ fault, (w.call host bound addr).1 = .stopped fault → fault.kind ∈ FaultKind.ofDeclared := by
  have armed : w.armed.Sheltered := .of_empty declared rfl
  have plainspoken : (Micro.pushWord (callSentinel - 1)).Uses MicroOp.Plainspoken :=
    Micro.plainspoken_of_common (Micro.common_pushWord _)
  have pushed := Micro.history_of_declared host plainspoken armed.declared
  have begun : (w.beginCall host).Sheltered := armed.microcode host plainspoken
  obtain ⟨events, stops⟩ := begun.run host bound addr
  exact ⟨List.forall_mem_append.mpr ⟨pushed, events⟩, stops⟩

/-- Instruments and counters are no part of the machine that settings describe. -/
theorem machine_ofSettings (settings : Settings) (metrics : Metrics) (host : σ) :
    (ofSettings settings metrics host).machine =
      { mem := Memory.new settings.memSize settings.fill
        limit := settings.cycleLimit
        level := settings.level } := by
  unfold ofSettings
  dsimp only
  split
  · rw [(Alike.of_enableMetrics _).machine]
    split
    · exact (Alike.of_enableProfile _).machine
    · rfl
  · split
    · exact (Alike.of_enableProfile _).machine
    · rfl

theorem machine_loadLabelLines (number count : Nat) (lines : List (List UInt8)) (w : World σ) :
    (w.loadLabelLines number count lines).2.machine = w.machine := by
  induction lines generalizing number count w with
  | nil => rfl
  | cons bytes rest inductionHypothesis =>
    unfold loadLabelLines
    split
    next malformed => rfl
    next line decoded =>
      split
      all_goals exact inductionHypothesis _ _ _

theorem machine_loadProfile (bytes : List UInt8) (w : World σ) :
    (w.loadProfile bytes).2.machine = w.machine := by
  unfold loadProfile
  split <;> rfl

end World

namespace Image

variable (image : Image)

/-- What is declared for an image, the latest declaration first. -/
def declarations (size : Nat) (zeroed : Bool) : Declarations :=
  [if image.rom then .rom image.origin.toNat image.bytes else .data image.origin.toNat image.bytes,
    .ram 0 size zeroed]

theorem declareImage_eq (mem : Memory) (zeroed : Bool) :
    mem.declareImage image zeroed = (image.declarations mem.size zeroed).applyTo mem := by
  unfold Memory.declareImage declarations
  cases image.rom <;> rfl

variable {image} {size : Nat} {zeroed : Bool} {addr : UInt16}

theorem cell_inside {byte : UInt8} (covered : Covers size image.origin.toNat image.bytes.length addr)
    (found : image.bytes[addr.toNat - image.origin.toNat]? = some byte) (initial : UInt8) :
    (image.declarations size zeroed).cell size addr initial = ⟨byte, { rom := image.rom }⟩ := by
  cases sealed : image.rom <;>
    simp [declarations, sealed, Declarations.cell, Declarations.region, Declarations.since,
      Declaration.state?, Declaration.byte?, Declaration.marks, covered, found]

theorem cell_outside (inside : addr.toNat < size)
    (uncovered : ¬Covers size image.origin.toNat image.bytes.length addr) (initial : UInt8) :
    (image.declarations size zeroed).cell size addr initial =
      ⟨if zeroed then 0 else initial, { uninitialized := !zeroed }⟩ := by
  have everywhere : Covers size 0 size addr := ⟨Nat.zero_le _, by omega, inside⟩
  cases sealed : image.rom <;> cases zeroed <;>
    simp [declarations, sealed, Declarations.cell, Declarations.region, Declarations.since,
      Declaration.state?, Declaration.byte?, Declaration.marks, Declaration.readies,
      Declaration.initializes, uncovered, everywhere]

end Image

/-- A memory with an image in it, and RAM around. -/
def Memory.loaded (settings : Settings) (image : Image) : Memory :=
  (image.declarations Memory.maxSize (settings.fill == .zero)).applyTo
    (.new settings.memSize settings.fill)

namespace Memory

variable {settings : Settings} {image : Image} {addr : UInt16}

theorem cell?_loaded (full : clampSize settings.memSize = maxSize) :
    (loaded settings image).cell? addr =
      ((settings.fill.bytes maxSize)[addr.toNat]?).map
        ((image.declarations maxSize (settings.fill == .zero)).cell maxSize addr) := by
  have cells := Declarations.cell?_applyTo settings.memSize settings.fill
    (image.declarations maxSize (settings.fill == .zero)) addr
  rwa [full] at cells

theorem getElem?_fill (fill : Fill) (addr : UInt16) :
    ∃ initial, (fill.bytes maxSize)[addr.toNat]? = some initial := by
  have inside : addr.toNat < (fill.bytes maxSize).length := by
    rw [fill.length_bytes]
    exact addr.toNat_lt
  exact ⟨_, List.getElem?_eq_getElem inside⟩

/-- The image is where it was loaded. -/
theorem cell?_loaded_inside (full : clampSize settings.memSize = maxSize) {index : Nat} {byte : UInt8}
    (place : addr.toNat = image.origin.toNat + index) (found : image.bytes[index]? = some byte) :
    (loaded settings image).cell? addr = some ⟨byte, { rom := image.rom }⟩ := by
  obtain ⟨initial, filled⟩ := getElem?_fill settings.fill addr
  have short : index < image.bytes.length := (List.getElem?_eq_some_iff.mp found).1
  have covered : Covers maxSize image.origin.toNat image.bytes.length addr := by
    have reach := addr.toNat_lt
    unfold Covers maxSize
    omega
  have offset : addr.toNat - image.origin.toNat = index := by omega
  rw [← offset] at found
  rw [cell?_loaded full, filled, Option.map_some, Image.cell_inside covered found]

theorem cell?_loaded_outside (full : clampSize settings.memSize = maxSize)
    (outside : addr.toNat < image.origin.toNat ∨
      image.origin.toNat + image.bytes.length ≤ addr.toNat) {initial : UInt8}
    (filled : (settings.fill.bytes maxSize)[addr.toNat]? = some initial) :
    (loaded settings image).cell? addr =
      some ⟨if settings.fill == .zero then 0 else initial,
        { uninitialized := !(settings.fill == .zero) }⟩ := by
  have inside : addr.toNat < maxSize := addr.toNat_lt
  have uncovered : ¬Covers maxSize image.origin.toNat image.bytes.length addr := by
    unfold Covers
    omega
  rw [cell?_loaded full, filled, Option.map_some, Image.cell_outside inside uncovered]

/-- Around the image there is RAM, zeroed or never written. -/
theorem cell?_around (full : clampSize settings.memSize = maxSize)
    (outside : addr.toNat < image.origin.toNat ∨
      image.origin.toNat + image.bytes.length ≤ addr.toNat) :
    match settings.fill with
    | .zero => (loaded settings image).cell? addr = some ⟨0, {}⟩
    | .random seed => ∃ byte, (KeyStream.bytes seed maxSize)[addr.toNat]? = some byte ∧
        (loaded settings image).cell? addr = some ⟨byte, { uninitialized := true }⟩ := by
  obtain ⟨initial, filled⟩ := getElem?_fill settings.fill addr
  have cell := cell?_loaded_outside full outside filled
  split
  next zero =>
    rw [zero] at cell
    exact cell
  next seed random =>
    rw [random] at cell filled
    exact ⟨initial, filled, cell⟩

theorem declared_loaded (full : clampSize settings.memSize = maxSize) :
    (loaded settings image).Declared where
  free := by
    unfold loaded Image.declarations
    cases image.rom <;> rfl
  declared addr := by
    by_cases inside : image.origin.toNat ≤ addr.toNat ∧
      addr.toNat < image.origin.toNat + image.bytes.length
    · have short : addr.toNat - image.origin.toNat < image.bytes.length := by omega
      have place : addr.toNat = image.origin.toNat + (addr.toNat - image.origin.toNat) := by omega
      rw [state_of_cell? (cell?_loaded_inside full place (List.getElem?_eq_getElem short))]
    · obtain ⟨initial, filled⟩ := getElem?_fill settings.fill addr
      rw [state_of_cell? (cell?_loaded_outside full (by omega) filled)]

/-- The bytes of a write-protected image stay under protection. -/
theorem raw_of_protects (full : clampSize settings.memSize = maxSize) (sealed : image.rom = true)
    {after : Memory} (protects : (loaded settings image).Cellwise Cell.Protects after) {index : Nat}
    {byte : UInt8} (place : addr.toNat = image.origin.toNat + index)
    (found : image.bytes[index]? = some byte) : after.raw addr = byte := by
  have before := cell?_loaded_inside full place found
  have cells := protects.cells addr.toNat
  unfold cell? at before
  rw [before] at cells
  unfold raw cell?
  generalize after.cells[addr.toNat]? = later at cells
  cases cells with
  | some kept => exact kept.byte (.inl sealed)

end Memory

namespace CommandLine

variable {settings : Settings} {path : String} {image : Image} {options : Options}
  {w u v : World Unit} {time : Timestamp} {before after : Transcript}

theorem loadImage_eq (full : Memory.clampSize settings.memSize = Memory.maxSize) (image : Image) :
    (World.ofSettings settings {} ()).loadImage image settings.fill =
      if image.origin.toNat + image.bytes.length ≤ Memory.maxSize then
        (.ok (), (World.ofSettings settings {} ()).mapMem fun _ => .loaded settings image)
      else (.error (.doesNotFit image Memory.maxSize), World.ofSettings settings {} ()) := by
  have mem : (World.ofSettings settings {} () : World Unit).machine.mem =
      .new settings.memSize settings.fill := by
    rw [World.machine_ofSettings]
  have size : (World.ofSettings settings {} () : World Unit).machine.mem.size = Memory.maxSize := by
    rw [mem, (Memory.sound_new _ _).size_eq, full]
  unfold World.loadImage Image.fits
  simp only [decide_eq_true_eq, size]
  congr 2
  unfold World.mapMem
  dsimp only
  rw [Image.declareImage_eq, size, mem]
  rfl

/-- What is read of a file is what the files hold under its path. -/
theorem run_read {α : Type} (next : Except FileError (List UInt8) → Run α) :
    (do let answer ← Console.read path; next answer : Run α).run.run time before =
      (next (before.files.read path)).run.run time before :=
  rfl

theorem machine_readLabels (read : (readLabels options w).run.run time before = (.ok u, after)) :
    u.machine = w.machine := by
  unfold readLabels at read
  cases named : options.labels with
  | none =>
    simp only [named] at read
    cases read
    rfl
  | some path =>
    simp only [named] at read
    rw [run_read] at read
    split at read
    next unreadable => cases read
    next bytes found =>
      have kept : (w.loadLabels bytes).2.machine = w.machine := World.machine_loadLabelLines _ _ _ w
      split at read
      next loaded =>
        cases read
        rwa [loaded] at kept
      next malformed => cases read

theorem machine_readProfile (read : (readProfile options w).run.run time before = (.ok u, after)) :
    u.machine = w.machine := by
  unfold readProfile at read
  cases named : options.profileIn with
  | none =>
    simp only [named] at read
    cases read
    rfl
  | some path =>
    simp only [named] at read
    rw [run_read] at read
    split at read
    next unreadable => cases read
    next bytes found =>
      have kept := World.machine_loadProfile bytes w
      split at read
      next loaded =>
        cases read
        rwa [loaded] at kept
      next malformed => cases read

/-- From a loaded world, with the labels and the profile that the options name, a program makes its call. -/
def Prepares (options : Options) (w v : World Unit) : Prop :=
  ∃ time before between after u,
    (readLabels options w).run.run time before = (.ok u, between) ∧
      (readProfile options u).run.run time between = (.ok v, after)

theorem Prepares.machine (prepares : Prepares options w v) : v.machine = w.machine := by
  obtain ⟨time, before, between, after, u, labelled, profiled⟩ := prepares
  exact (machine_readProfile profiled).trans (machine_readLabels labelled)

/-- With all of the address space as memory, an image that does not fit is refused, and nothing changes. One that fits
is loaded with its bytes in their place and RAM around them, zeroed for a zero fill, else never written and with the
bytes of the fill. Whatever the program of the command line reads besides, its call then raises no fault of undeclared
memory, so that it cannot end with one, and it leaves the bytes of a write-protected image as they are. -/
theorem loaded_image_stays_declared (settings : Settings)
    (full : Memory.clampSize settings.memSize = Memory.maxSize) (path : String) (image : Image) :
    (Memory.maxSize < image.origin.toNat + image.bytes.length →
        (World.ofSettings settings {} ()).loadImage image settings.fill =
            (.error (.doesNotFit image Memory.maxSize), World.ofSettings settings {} ()) ∧
          loadWorld settings path image =
            .error (.image path (.doesNotFit image Memory.maxSize))) ∧
      (image.origin.toNat + image.bytes.length ≤ Memory.maxSize →
        ∃ w, loadWorld settings path image = .ok w ∧
          (∀ (addr : UInt16) index byte, addr.toNat = image.origin.toNat + index →
            image.bytes[index]? = some byte →
              w.machine.mem.cell? addr = some ⟨byte, { rom := image.rom }⟩) ∧
          (∀ addr : UInt16, addr.toNat < image.origin.toNat ∨
              image.origin.toNat + image.bytes.length ≤ addr.toNat →
            match settings.fill with
            | .zero => w.machine.mem.cell? addr = some ⟨0, {}⟩
            | .random seed => ∃ byte,
                (KeyStream.bytes seed Memory.maxSize)[addr.toNat]? = some byte ∧
                  w.machine.mem.cell? addr = some ⟨byte, { uninitialized := true }⟩) ∧
          ∀ options v, Prepares options w v → ∀ bound entry,
            (∀ event ∈ v.operationHistory hooklessHost (.call bound entry), ∃ fault,
              event = .raised fault ∧
                fault.kind ∉ [FaultKind.executeUndefined, .readUndefined, .writeUndefined]) ∧
            (∀ fault, (v.call hooklessHost bound entry).1 = .stopped fault →
              fault.kind ∉ [FaultKind.executeUndefined, .readUndefined, .writeUndefined]) ∧
            (image.rom = true → ∀ (addr : UInt16) index byte,
              addr.toNat = image.origin.toNat + index → image.bytes[index]? = some byte →
                (v.call hooklessHost bound entry).2.machine.mem.raw addr = byte)) := by
  have loading := loadImage_eq full image
  constructor
  · intro exceeds
    rw [if_neg (Nat.not_le.mpr exceeds)] at loading
    refine ⟨loading, ?_⟩
    unfold loadWorld
    rw [loading]
  · intro fits
    rw [if_pos fits] at loading
    refine ⟨(World.ofSettings settings {} ()).mapMem fun _ => .loaded settings image, ?_, ?_, ?_, ?_⟩
    · unfold loadWorld
      rw [loading]
    · intro addr index byte place found
      exact Memory.cell?_loaded_inside full place found
    · intro addr outside
      exact Memory.cell?_around full outside
    · intro options v prepares bound entry
      have mem : v.machine.mem = .loaded settings image := by
        rw [prepares.machine]
        rfl
      have declared : v.machine.mem.Declared := by
        rw [mem]
        exact Memory.declared_loaded full
      obtain ⟨events, stops⟩ := World.call_of_declared hooklessHost declared bound entry
      have apart {kind : FaultKind} (member : kind ∈ FaultKind.ofDeclared) :
          kind ∉ [FaultKind.executeUndefined, .readUndefined, .writeUndefined] := by
        revert member
        cases kind <;> decide
      refine ⟨?_, ?_, ?_⟩
      · intro event member
        obtain ⟨fault, raised, among⟩ := events event member
        exact ⟨fault, raised, apart among⟩
      · intro fault stopped
        exact apart (stops fault stopped)
      · intro sealed addr index byte place found
        have protects := (Memory.kept_protects declared.free hooklessHost).call bound entry
          (.refl .refl v.machine.mem)
        rw [mem] at protects
        exact Memory.raw_of_protects full sealed protects place found

/-- Two bytes of write-protected memory at the end of the address space. -/
def topRom : Image where
  origin := 0xFFFE
  bytes := [0xEA, 0x60]
  rom := true

theorem topRom_stays_declared :
    ∃ w, loadWorld {} "top.bin" topRom = .ok w ∧ w.machine.mem.cell? 0x0200 = some ⟨0, {}⟩ ∧
      (callEntry 0xFFFE w).2.machine.mem.raw 0xFFFF = 0x60 ∧
      loadWorld {} "top.bin" { topRom with origin := 0xFFFF } =
        .error (.image "top.bin" (.doesNotFit { topRom with origin := 0xFFFF } 0x10000)) := by
  have full : Memory.clampSize ({} : Settings).memSize = Memory.maxSize := by decide
  obtain ⟨w, loaded, -, around, runs⟩ :=
    (loaded_image_stays_declared {} full "top.bin" topRom).2 (by decide)
  have prepares : Prepares { image := "top.bin", origin := 0xFFFE } w w :=
    ⟨{}, {}, {}, {}, w, rfl, rfl⟩
  obtain ⟨-, -, intact⟩ := runs _ w prepares windowBound 0xFFFE
  have refused :=
    (loaded_image_stays_declared {} full "top.bin" { topRom with origin := 0xFFFF }).1 (by decide)
  exact ⟨w, loaded, around 0x0200 (.inl (by decide)), intact rfl 0xFFFF 1 0x60 (by decide) rfl, refused.2⟩

end CommandLine

end Mos6502
