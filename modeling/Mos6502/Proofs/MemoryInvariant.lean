import Mos6502.Proofs.Cellwise
import Mos6502.Proofs.Operation
import Mos6502.Proofs.Snapshot.Restore
import Mos6502.World.Setup

/-!
# The memory invariant

Memory has between one cell and as many as addresses reach, hooks are bound inside of it, a cell is marked as
hooked exactly where a read or write hook is bound, and no cell is in two of the states undeclared, write-protected
and never written. This holds of new memories and is kept by declarations, by execution, by restoring, and by hooks
that do nothing but such things, to any depth.
-/

namespace Mos6502

variable {σ : Type}

/-- At most one of the states undeclared, write-protected and never written. -/
structure CellState.Exclusive (state : CellState) : Prop where
  undefined_rom : ¬(state.undefined = true ∧ state.rom = true)
  undefined_uninitialized : ¬(state.undefined = true ∧ state.uninitialized = true)
  rom_uninitialized : ¬(state.rom = true ∧ state.uninitialized = true)

/-- The invariant of a memory with `size` cells. -/
structure Memory.Sound (size : Nat) (mem : Memory) : Prop where
  size_eq : mem.size = size
  size_pos : 0 < size
  size_le : size ≤ maxSize
  hook_inside {kind : AccessKind} {addr : UInt16} :
    (mem.hook? kind addr).isSome = true → addr.toNat < size
  hooked_iff (addr : UInt16) :
    (mem.state addr).hooked = true ↔
      (mem.hook? .read addr).isSome = true ∨ (mem.hook? .write addr).isSome = true
  exclusive (addr : UInt16) : (mem.state addr).Exclusive

namespace CellState

theorem exclusive_undeclared : undeclared.Exclusive := by
  constructor <;> decide

end CellState

/-- A change of a cell that leaves the mark of a hook alone and puts the cell in no second state. -/
structure Cell.Sustains (before after : Cell) : Prop where
  hooked : after.state.hooked = before.state.hooked
  exclusive : before.state.Exclusive → after.state.Exclusive

namespace Cell

theorem Sustains.refl (cell : Cell) : cell.Sustains cell :=
  ⟨rfl, id⟩

theorem sustains_asZeroed (cell : Cell) : cell.Sustains cell.asZeroed :=
  ⟨rfl, fun _ => by constructor <;> simp [asZeroed]⟩

theorem sustains_asUninitialized (cell : Cell) : cell.Sustains cell.asUninitialized :=
  ⟨rfl, fun _ => by constructor <;> simp [asUninitialized]⟩

theorem sustains_asData (byte : UInt8) (cell : Cell) : cell.Sustains (cell.asData byte) :=
  ⟨rfl, fun _ => by constructor <;> simp [asData]⟩

theorem sustains_asRom (byte : UInt8) (cell : Cell) : cell.Sustains (cell.asRom byte) :=
  ⟨rfl, fun _ => by constructor <;> simp [asRom]⟩

theorem sustains_asReadable (cell : Cell) : cell.Sustains cell.asReadable :=
  ⟨rfl, fun _ => by constructor <;> simp [asReadable]⟩

theorem sustains_asInitialized (cell : Cell) : cell.Sustains cell.asInitialized where
  hooked := rfl
  exclusive exclusive := by
    refine ⟨exclusive.undefined_rom, ?_, ?_⟩ <;> simp [asInitialized]

end Cell

namespace Memory

variable {size : Nat} {mem : Memory}

theorem exclusive_of_cell {addr : UInt16}
    (each : ∀ cell, mem.cell? addr = some cell → cell.state.Exclusive) :
    (mem.state addr).Exclusive := by
  cases found : mem.cell? addr with
  | none =>
    rw [state, found]
    exact CellState.exclusive_undeclared
  | some cell =>
    rw [state_of_cell? found]
    exact each cell found

theorem Sound.exclusive_of_cell? (sound : mem.Sound size) {addr : UInt16} {cell : Cell}
    (found : mem.cell? addr = some cell) : cell.state.Exclusive := by
  rw [← state_of_cell? found]
  exact sound.exclusive addr

theorem Sound.of_cellwise {after : Memory} (sound : mem.Sound size)
    (related : mem.Cellwise Cell.Sustains after) : after.Sound size where
  size_eq := related.size.trans sound.size_eq
  size_pos := sound.size_pos
  size_le := sound.size_le
  hook_inside := by
    intro kind addr bound
    unfold hook? at bound
    rw [related.hooks] at bound
    exact sound.hook_inside bound
  hooked_iff addr := by
    have same : (after.state addr).hooked = (mem.state addr).hooked := by
      have cells := related.cells addr.toNat
      unfold state cell?
      generalize mem.cells[addr.toNat]? = found at cells
      generalize after.cells[addr.toNat]? = foundAfter at cells
      cases cells with
      | none => rfl
      | some sustains => exact sustains.hooked
    unfold hook?
    rw [same, related.hooks]
    exact sound.hooked_iff addr
  exclusive addr := by
    apply exclusive_of_cell
    intro cell found
    obtain ⟨earlier, foundEarlier, sustains⟩ := related.exists_cell? found
    exact sustains.exclusive (sound.exclusive_of_cell? foundEarlier)

theorem sound_new (size : Nat) (fill : Fill) : (new size fill).Sound (clampSize size) where
  size_eq := by simp [new, Memory.size, Fill.length_bytes]
  size_pos := clampSize_pos size
  size_le := clampSize_le size
  hook_inside bound := by simp [hook?, new] at bound
  hooked_iff addr := by
    rw [state_new]
    simp [CellState.undeclared, hook?, new]
  exclusive addr := by
    rw [state_new]
    exact CellState.exclusive_undeclared

theorem Sound.declareRam (sound : mem.Sound size) (start length : Nat) (zeroed : Bool) :
    (mem.declareRam start length zeroed).Sound size := by
  cases zeroed with
  | true => exact sound.of_cellwise (cellwise_changeRange .refl Cell.sustains_asZeroed mem start _)
  | false =>
    exact sound.of_cellwise (cellwise_changeRange .refl Cell.sustains_asUninitialized mem start _)

theorem Sound.declareData (sound : mem.Sound size) (start : Nat) (bytes : List UInt8) :
    (mem.declareData start bytes).Sound size :=
  sound.of_cellwise (cellwise_changeBytes .refl Cell.sustains_asData mem start bytes)

theorem Sound.declareRom (sound : mem.Sound size) (start : Nat) (bytes : List UInt8) :
    (mem.declareRom start bytes).Sound size :=
  sound.of_cellwise (cellwise_changeBytes .refl Cell.sustains_asRom mem start bytes)

theorem Sound.markInitialized (sound : mem.Sound size) (addr : UInt16) :
    (mem.markInitialized addr).Sound size :=
  sound.of_cellwise (cellwise_modify .refl fun cell _ => cell.sustains_asInitialized)

theorem Sound.store (sound : mem.Sound size) (addr : UInt16) (value : UInt8) :
    (mem.store addr value).Sound size :=
  sound.of_cellwise (cellwise_modify .refl fun _ _ => ⟨rfl, id⟩)

/-- Binding a hook marks the cells it is bound to if accesses of its kind look for the mark. -/
theorem hooked_bind (mem : Memory) (kind : AccessKind) (start length hook : Nat) (addr : UInt16) :
    ((mem.bind kind start length hook).state addr).hooked = true ↔
      (kind ≠ .exec ∧ start ≤ addr.toNat ∧ addr.toNat < start + mem.clip start length) ∨
        (mem.state addr).hooked = true := by
  have changed := cell?_bind mem kind start length hook addr
  cases found : mem.cell? addr with
  | none =>
    have past : mem.size ≤ addr.toNat := Array.getElem?_eq_none_iff.mp found
    have outside : ¬(start ≤ addr.toNat ∧ addr.toNat < start + mem.clip start length) :=
      fun range => absurd (lt_size_of_lt_clip range.1 range.2) (Nat.not_lt.mpr past)
    rw [found] at changed
    simp [state, found, changed, outside]
  | some cell =>
    rw [found] at changed
    rw [state_of_cell? found, state_of_cell? changed]
    cases kind with
    | read | write =>
      by_cases range : start ≤ addr.toNat ∧ addr.toNat < start + mem.clip start length
      · simp [range, Cell.asHooked]
      · simp [range]
    | exec =>
      -- Windows look for exec hooks without asking for a mark, so binding one sets none.
      dsimp only
      split <;> simp [Cell.asReadable]

theorem exclusive_bind {addr : UInt16} (exclusive : (mem.state addr).Exclusive) (kind : AccessKind)
    (start length hook : Nat) : ((mem.bind kind start length hook).state addr).Exclusive := by
  have changed := cell?_bind mem kind start length hook addr
  cases found : mem.cell? addr with
  | none =>
    rw [found] at changed
    rw [state, changed]
    exact CellState.exclusive_undeclared
  | some cell =>
    rw [found] at changed
    rw [state_of_cell? found] at exclusive
    rw [state_of_cell? changed]
    cases kind with
    | read | write =>
      dsimp only
      split
      · exact ⟨exclusive.undefined_rom, exclusive.undefined_uninitialized, exclusive.rom_uninitialized⟩
      · exact exclusive
    | exec =>
      dsimp only
      split
      · exact cell.sustains_asReadable.exclusive exclusive
      · exact exclusive

theorem Sound.bind (sound : mem.Sound size) (kind : AccessKind) (start length hook : Nat) :
    (mem.bind kind start length hook).Sound size where
  size_eq := (size_bind mem kind start length hook).trans sound.size_eq
  size_pos := sound.size_pos
  size_le := sound.size_le
  hook_inside := by
    intro other addr bound
    rcases (isSome_hook?_bind mem kind other start length hook addr).mp bound with
      ⟨-, first, last⟩ | earlier
    · exact sound.size_eq ▸ lt_size_of_lt_clip first last
    · exact sound.hook_inside earlier
  hooked_iff addr := by
    rw [hooked_bind, isSome_hook?_bind, isSome_hook?_bind, sound.hooked_iff]
    cases kind <;> simp [or_assoc, or_left_comm]
  exclusive addr := exclusive_bind (sound.exclusive addr) kind start length hook

/-- Taking over the cells of another sound memory of the same size keeps the invariant. -/
theorem Sound.adopt {other : Nat} {captured : Memory} (sound : mem.Sound size)
    (capturedSound : captured.Sound other) (sizes : captured.size = mem.size) :
    (mem.adopt captured).Sound size where
  size_eq := by
    rw [← sound.size_eq]
    unfold Memory.size at sizes ⊢
    rw [Memory.adopt, Array.size_zipWith, sizes, Nat.min_self]
  size_pos := sound.size_pos
  size_le := sound.size_le
  hook_inside bound := sound.hook_inside bound
  hooked_iff addr := by
    have same : ((mem.adopt captured).state addr).hooked = (mem.state addr).hooked := by
      unfold state
      rw [cell?_adopt]
      cases target : mem.cell? addr with
      | none => simp
      | some cell =>
        have inside : addr.toNat < captured.size := by
          rw [sizes]
          exact (Array.getElem?_eq_some_iff.mp target).1
        have source : captured.cell? addr = some captured.cells[addr.toNat] :=
          Array.getElem?_eq_getElem inside
        rw [source]
        rfl
    rw [same]
    exact sound.hooked_iff addr
  exclusive addr := by
    apply exclusive_of_cell
    intro cell found
    rw [cell?_adopt] at found
    obtain ⟨before, -, found⟩ := Option.bind_eq_some_iff.mp found
    obtain ⟨source, fromSource, rfl⟩ := Option.map_eq_some_iff.mp found
    obtain ⟨first, second, third⟩ := capturedSound.exclusive_of_cell? fromSource
    exact ⟨first, second, third⟩

theorem Sound.kept_of_respond (size : Nat) {host : Host σ}
    (answers : ∀ hook addr access (w : World σ), w.machine.mem.Sound size →
      (host.respond hook addr access w).2.machine.mem.Sound size) :
    Kept (Sound size) host where
  mark addr sound := sound.markInitialized addr
  put value _ _ sound := (sound.store _ value).markInitialized _
  respond _ sound := answers _ _ _ _ sound

end Memory

/-- What a host can declare about memory. -/
inductive Declaration where
  | ram (start length : Nat) (zeroed : Bool)
  | data (start : Nat) (bytes : List UInt8)
  | rom (start : Nat) (bytes : List UInt8)
  | bind (kind : AccessKind) (start length hook : Nat)
  | initialized (addr : UInt16)
deriving DecidableEq, Repr

def Declaration.apply (declaration : Declaration) (mem : Memory) : Memory :=
  match declaration with
  | .ram start length zeroed => mem.declareRam start length zeroed
  | .data start bytes => mem.declareData start bytes
  | .rom start bytes => mem.declareRom start bytes
  | .bind kind start length hook => mem.bind kind start length hook
  | .initialized addr => mem.markInitialized addr

/-- `Reaches host v w`: the world `w` comes from `v` by declarations, operations, restoring, and changes that leave
memory alone. A hook that an operation comes to does such things itself, with a host of its own for the hooks that
these come to in turn. What is restored is the snapshot of a machine that comes from a new one in the same way. -/
inductive Reaches : {σ : Type} → Host σ → World σ → World σ → Prop where
  | refl {σ : Type} {host : Host σ} (w : World σ) : Reaches host w w
  | aside {σ : Type} {host : Host σ} {u v w : World σ} :
      Reaches host u v → w.machine.mem = v.machine.mem → Reaches host u w
  | declare {σ : Type} {host : Host σ} {u v : World σ} (declaration : Declaration) :
      Reaches host u v → Reaches host u (v.mapMem declaration.apply)
  | operate {σ : Type} {host inner : Host σ} {u v : World σ} (operation : Operation) :
      (∀ hook addr access w, Reaches inner w (host.respond hook addr access w).2) →
        Reaches host u v → Reaches host u (v.operate host operation).2
  | restore {σ τ : Type} {host : Host σ} {u v : World σ} {other : Host τ} {start source : World τ}
      {size : Nat} {fill : Fill} (id name : String) (createdAt : Timestamp) :
      start.machine.mem = Memory.new size fill → Reaches other start source → Reaches host u v →
        Reaches host u (v.restore (.ofMachine id name createdAt source.machine)).2

theorem Memory.Sound.declare {size : Nat} {mem : Memory} (sound : mem.Sound size)
    (declaration : Declaration) : (declaration.apply mem).Sound size := by
  cases declaration with
  | ram start length zeroed => exact sound.declareRam start length zeroed
  | data start bytes => exact sound.declareData start bytes
  | rom start bytes => exact sound.declareRom start bytes
  | bind kind start length hook => exact sound.bind kind start length hook
  | initialized addr => exact sound.markInitialized addr

namespace Reaches

/-- Whatever is done to a world keeps its memory sound. -/
theorem sound {host : Host σ} {v w : World σ} (reaches : Reaches host v w) {size : Nat}
    (sound : v.machine.mem.Sound size) : w.machine.mem.Sound size := by
  induction reaches generalizing size with
  | refl => exact sound
  | aside _ same inductionHypothesis =>
    rw [same]
    exact inductionHypothesis sound
  | declare declaration _ inductionHypothesis => exact (inductionHypothesis sound).declare declaration
  | operate operation _ _ answers inductionHypothesis =>
    -- What a hook does is a way to reach a world too, so it comes with an induction hypothesis of its own.
    have kept := Memory.Sound.kept_of_respond size fun hook addr access w => answers hook addr access w
    exact kept.operate operation (inductionHypothesis sound)
  | restore id name createdAt new _ _ source inductionHypothesis =>
    rw [World.mem_restore_ofMachine]
    split
    next fits =>
      have captured := source (new ▸ Memory.sound_new _ _)
      exact (inductionHypothesis sound).adopt captured fits
    next => exact inductionHypothesis sound

end Reaches

namespace World

/-- Whatever is done to a new machine, by its host or in its hooks, memory keeps its size and its invariant. -/
theorem memory_sound_of_reaches {host : Host σ} {v w : World σ} {size : Nat} {fill : Fill}
    (new : v.machine.mem = .new size fill) (reaches : Reaches host v w) :
    w.machine.mem.bytes.length = Memory.clampSize size ∧
      w.machine.mem.stateBytes.length = Memory.clampSize size ∧
      w.machine.mem.Sound (Memory.clampSize size) := by
  have sound := reaches.sound (new ▸ Memory.sound_new size fill)
  have size_eq := sound.size_eq
  unfold Memory.size at size_eq
  exact ⟨by simpa [Memory.bytes], by simpa [Memory.stateBytes], sound⟩

/-- A host whose hooks write-protect the cell at address 1. -/
def protector : Host Unit where
  respond _ _ _ w := (.ok 0xEA, w.mapMem (Declaration.rom 1 [0x60]).apply)

/-- Never-written RAM with a read hook. -/
def hookedStart : World Unit :=
  ((ofSettings { memSize := 4 } {} ()).mapMem (Declaration.ram 0 2 false).apply).mapMem
    (Declaration.bind .read 0 2 7).apply

theorem protector_keeps_sound :
    ((hookedStart.operate protector (.read 0)).2.machine.mem.state 1).rom = true ∧
      ((hookedStart.operate protector (.read 0)).2.restore
        (.ofMachine "id" "name" {} hookedStart.machine)).2.machine.mem.Sound 4 := by
  have new : (ofSettings { memSize := 4 } {} () : World Unit).machine.mem = .new 4 .zero := rfl
  have declared : Reaches protector (ofSettings { memSize := 4 } {} ()) hookedStart :=
    .declare (.bind .read 0 2 7) (.declare (.ram 0 2 false) (.refl _))
  have answers (hook : Nat) (addr : UInt16) (access : Access) (w : World Unit) :
      Reaches protector w (protector.respond hook addr access w).2 :=
    .declare (.rom 1 [0x60]) (.refl w)
  have restored := Reaches.restore "id" "name" {} new declared (.operate (.read 0) answers declared)
  exact ⟨by decide +kernel, (memory_sound_of_reaches new restored).2.2⟩

end World

end Mos6502
