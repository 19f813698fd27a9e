import Mos6502.Proofs.MemoryHistory
import Mos6502.Proofs.MemoryInvariant

/-!
# Declared memory

A host declares regions and binds hooks in any order, over one another and past the end of memory. What becomes of a
cell can be told from the list of its declarations: the latest region that covers the cell says of what kind it is, the
latest one that comes with a content says what it holds, and of the hooks that are bound later only an exec hook at the
cell before makes a difference to its kind. Read and write hooks leave a mark, which no region takes away.
-/

namespace Mos6502

/-- The sum of two words, or the largest word if it is out of reach. -/
def saturatingSum (start length : UInt64) : Nat :=
  min (start.toNat + length.toNat) (bound64 - 1)

/-- What clipping in words leaves of a range is what the range covers, also where its end is out of reach. -/
theorem clipped_iff_covers {size : Nat} (size_le : size ≤ Memory.maxSize) (start length : UInt64)
    (addr : UInt16) :
    (min start.toNat size ≤ addr.toNat ∧ addr.toNat < min (saturatingSum start length) size) ↔
      Covers size start.toNat length.toNat addr := by
  have reach := addr.toNat_lt
  unfold saturatingSum Covers bound64
  unfold Memory.maxSize at size_le
  omega

namespace Declaration

/-- The first address of a region and the number of its addresses. -/
def range? : Declaration → Option (Nat × Nat)
  | ram start length _ => some (start, length)
  | data start bytes | rom start bytes => some (start, bytes.length)
  | bind _ _ _ _ | initialized _ => none

variable (size : Nat) (addr : UInt16)

/-- The state that a region gives to the cell at an address, the mark of hooks aside. -/
def state? : Declaration → Option CellState
  | ram start length zeroed =>
    if Covers size start length addr then some { uninitialized := !zeroed } else none
  | data start bytes => if Covers size start bytes.length addr then some {} else none
  | rom start bytes => if Covers size start bytes.length addr then some { rom := true } else none
  | bind _ _ _ _ | initialized _ => none

/-- The byte that a region gives to the cell at an address. RAM that is not zeroed gives none. -/
def byte? : Declaration → Option UInt8
  | ram start length zeroed => if zeroed ∧ Covers size start length addr then some 0 else none
  | data start bytes | rom start bytes =>
    if Covers size start bytes.length addr then bytes[addr.toNat - start]? else none
  | bind _ _ _ _ | initialized _ => none

/-- Whether a read or write hook is bound at an address. -/
def marks : Declaration → Bool
  | bind kind start length _ => kind != .exec && decide (Covers size start length addr)
  | _ => false

/-- Whether an exec hook is bound at the address before. -/
def readies : Declaration → Bool
  | bind kind start length _ =>
    kind == .exec && addr != 0 && decide (Covers size start length (addr - 1))
  | _ => false

/-- Whether the cell at an address is made to count as written. -/
def initializes : Declaration → Bool
  | initialized other => other == addr
  | _ => false

/-- The part of a declaration on one cell. -/
def change (declaration : Declaration) (cell : Cell) : Cell :=
  match declaration with
  | ram start length zeroed => (MemoryAction.ram start length zeroed).change size addr cell
  | data start bytes => (MemoryAction.data start bytes).change size addr cell
  | rom start bytes => (MemoryAction.rom start bytes).change size addr cell
  | bind kind start length hook =>
    if marks size addr (bind kind start length hook) then cell.asHooked
    else if readies size addr (bind kind start length hook) then cell.asReadable
    else cell
  | initialized other => if other = addr then cell.asInitialized else cell

end Declaration

/-- What was declared about memory, the latest declaration first. -/
abbrev Declarations := List Declaration

namespace Declarations

variable (size : Nat) (addr : UInt16)

/-- The declarations after the latest region that covers an address. -/
def since (history : Declarations) : Declarations :=
  history.takeWhile fun declaration => (declaration.state? size addr).isNone

/-- The state of the latest region that covers an address. -/
def region (history : Declarations) : CellState :=
  (history.findSome? (·.state? size addr)).getD .undeclared

/-- The cell that declarations make of one with an initial byte in undeclared memory. -/
def cell (history : Declarations) (initial : UInt8) : Cell where
  byte := (history.findSome? (·.byte? size addr)).getD initial
  state :=
    { undefined := (history.region size addr).undefined &&
        !(history.since size addr).any (·.readies size addr)
      rom := (history.region size addr).rom
      uninitialized := (history.region size addr).uninitialized &&
        !(history.since size addr).any fun declaration =>
          declaration.readies size addr || declaration.initializes addr
      hooked := history.any (·.marks size addr) }

variable {size addr} {declaration : Declaration} (earlier : Declarations)

theorem byte_cons (initial : UInt8) :
    (cell size addr (declaration :: earlier) initial).byte =
      (declaration.byte? size addr).getD (cell size addr earlier initial).byte := by
  unfold cell
  rw [List.findSome?_cons]
  cases declaration.byte? size addr <;> rfl

/-- A region that covers the cell puts an end to what was declared before, the mark of hooks aside. -/
theorem state_cons_of_region {state : CellState} (covers : declaration.state? size addr = some state)
    (initial : UInt8) :
    (cell size addr (declaration :: earlier) initial).state =
      { state with
        hooked := declaration.marks size addr || (cell size addr earlier initial).state.hooked } := by
  have latest : region size addr (declaration :: earlier) = state := by
    rw [region, List.findSome?_cons, covers]
    rfl
  have none_since : since size addr (declaration :: earlier) = [] := by
    rw [since, List.takeWhile_cons, covers]
    rfl
  simp [cell, latest, none_since]

theorem state_cons_of_other (other : declaration.state? size addr = none) (initial : UInt8) :
    (cell size addr (declaration :: earlier) initial).state =
      { undefined := (cell size addr earlier initial).state.undefined &&
          !declaration.readies size addr
        rom := (cell size addr earlier initial).state.rom
        uninitialized := (cell size addr earlier initial).state.uninitialized &&
          !(declaration.readies size addr || declaration.initializes addr)
        hooked := declaration.marks size addr || (cell size addr earlier initial).state.hooked } := by
  have latest : region size addr (declaration :: earlier) = earlier.region size addr := by
    rw [region, List.findSome?_cons, other]
    rfl
  have one_more : since size addr (declaration :: earlier) =
      declaration :: earlier.since size addr := by
    rw [since, List.takeWhile_cons, other]
    rfl
  simp [cell, latest, one_more, Bool.and_assoc, Bool.and_comm, Bool.and_left_comm]

theorem change_cell (initial : UInt8) (declaration : Declaration) :
    declaration.change size addr (earlier.cell size addr initial) =
      cell size addr (declaration :: earlier) initial := by
  have byte : (cell size addr (declaration :: earlier) initial).byte =
      (declaration.byte? size addr).getD (earlier.cell size addr initial).byte :=
    byte_cons earlier initial
  have covered_state {state : CellState} (covers : declaration.state? size addr = some state) :=
    state_cons_of_region earlier covers initial
  have other_state (other : declaration.state? size addr = none) :=
    state_cons_of_other earlier other initial
  generalize cell size addr (declaration :: earlier) initial = later at byte covered_state other_state
  generalize earlier.cell size addr initial = before at byte covered_state other_state
  obtain ⟨byteAfter, stateAfter⟩ := later
  dsimp only at byte covered_state other_state
  cases declaration with
  | ram start length zeroed =>
    by_cases covered : Covers size start length addr
    · rw [byte, covered_state (if_pos covered)]
      cases zeroed <;>
        simp [Declaration.change, MemoryAction.change, Declaration.byte?, Declaration.marks, covered,
          Cell.asZeroed, Cell.asUninitialized]
    · rw [byte, other_state (if_neg covered)]
      simp [Declaration.change, MemoryAction.change, Declaration.byte?, Declaration.marks,
        Declaration.readies, Declaration.initializes, covered]
  | data start bytes | rom start bytes =>
    by_cases covered : Covers size start bytes.length addr
    · obtain ⟨behind, ahead, -⟩ := id covered
      have short : addr.toNat - start < bytes.length := by omega
      rw [byte, covered_state (if_pos covered)]
      simp [Declaration.change, MemoryAction.change, Declaration.byte?, Declaration.marks, covered,
        short, Cell.asData, Cell.asRom]
    · rw [byte, other_state (if_neg covered)]
      simp [Declaration.change, MemoryAction.change, Declaration.byte?, Declaration.marks,
        Declaration.readies, Declaration.initializes, covered]
  | bind kind start length hook =>
    rw [byte, other_state rfl]
    cases marked : Declaration.marks size addr (.bind kind start length hook) with
    | true =>
      -- A hook that leaves a mark is no exec hook.
      have read_or_write : (kind == .exec) = false := by
        simp only [Declaration.marks, bne, Bool.and_eq_true, Bool.not_eq_true'] at marked
        exact marked.1
      simp [Declaration.change, Declaration.byte?, Declaration.readies, Declaration.initializes,
        marked, read_or_write, Cell.asHooked]
    | false =>
      cases readied : Declaration.readies size addr (.bind kind start length hook) <;>
        simp [Declaration.change, Declaration.byte?, Declaration.initializes, marked, readied,
          Cell.asReadable]
  | initialized other =>
    rw [byte, other_state rfl]
    cases here : other == addr with
    | true =>
      simp [Declaration.change, Declaration.byte?, Declaration.marks, Declaration.readies,
        Declaration.initializes, beq_iff_eq.mp here, Cell.asInitialized]
    | false =>
      simp [Declaration.change, Declaration.byte?, Declaration.marks, Declaration.readies,
        Declaration.initializes, here, beq_eq_false_iff_ne.mp here]

end Declarations

namespace Memory

variable (mem : Memory) {addr : UInt16}

theorem clipped_iff (inside : addr.toNat < mem.size) (start length : Nat) :
    (start ≤ addr.toNat ∧ addr.toNat < start + mem.clip start length) ↔
      Covers mem.size start length addr := by
  unfold clip Covers
  omega

/-- The cells behind the ones that a range has inside memory are those whose predecessors it covers. -/
theorem clipped_behind_iff (inside : addr.toNat < mem.size) (start length : Nat) :
    (start + 1 ≤ addr.toNat ∧ addr.toNat < start + 1 + mem.clip start length) ↔
      addr ≠ 0 ∧ Covers mem.size start length (addr - 1) := by
  have first : addr = 0 ↔ addr.toNat = 0 := UInt16.toNat_inj.symm
  rw [Ne, first]
  by_cases zero : addr.toNat = 0
  · omega
  · have one_le : (1 : UInt16) ≤ addr := UInt16.le_iff_toNat_le.mpr (Nat.one_le_iff_ne_zero.mpr zero)
    have before : (addr - 1).toNat = addr.toNat - 1 := UInt16.toNat_sub_of_le _ _ one_le
    unfold clip Covers
    rw [before]
    omega

theorem cell?_apply (declaration : Declaration) (addr : UInt16) :
    (declaration.apply mem).cell? addr =
      (mem.cell? addr).map (declaration.change mem.size addr) := by
  cases declaration with
  | ram start length zeroed => exact cell?_declareRam mem start length zeroed addr
  | data start bytes => exact cell?_changeBytes mem (fun byte => Cell.asData byte) start bytes addr
  | rom start bytes => exact cell?_changeBytes mem (fun byte => Cell.asRom byte) start bytes addr
  | bind kind start length hook =>
    refine (mem.cell?_bind kind start length hook addr).trans ?_
    cases found : mem.cell? addr with
    | none => rfl
    | some cell =>
      have inside : addr.toNat < mem.size := (Array.getElem?_eq_some_iff.mp found).1
      have covered := mem.clipped_iff inside start length
      have behind := mem.clipped_behind_iff inside start length
      cases kind with
      | read | write =>
        simp [Declaration.change, Declaration.marks, Declaration.readies, covered]
      | exec =>
        simp only [behind, ne_eq, Option.map_some, Declaration.change, Declaration.marks,
          Declaration.readies, bne_self_eq_false, Bool.false_and, Bool.false_eq_true, if_false,
          BEq.rfl, Bool.true_and, Bool.and_eq_true, bne_iff_ne, decide_eq_true_eq]
  | initialized other =>
    apply mem.cell?_modify_eq_map
    · rintro rfl cell -
      exact if_pos rfl
    · intro elsewhere cell
      exact if_neg elsewhere

end Memory

namespace Declarations

def applyTo (history : Declarations) (mem : Memory) : Memory :=
  history.foldr Declaration.apply mem

theorem sound_applyTo {mem : Memory} {size : Nat} (sound : mem.Sound size) (history : Declarations) :
    (history.applyTo mem).Sound size := by
  induction history with
  | nil => exact sound
  | cons declaration earlier inductionHypothesis => exact inductionHypothesis.declare declaration

/-- Every cell of a new memory is what the declarations make of its initial byte. -/
theorem cell?_applyTo (size : Nat) (fill : Fill) (history : Declarations) (addr : UInt16) :
    (history.applyTo (.new size fill)).cell? addr =
      ((fill.bytes (Memory.clampSize size))[addr.toNat]?).map
        (history.cell (Memory.clampSize size) addr) := by
  induction history with
  | nil =>
    change (Memory.new size fill).cell? addr = _
    unfold Memory.cell? Memory.new
    rw [List.getElem?_toArray, List.getElem?_map]
    rfl
  | cons declaration earlier inductionHypothesis =>
    have sizes := (sound_applyTo (Memory.sound_new size fill) earlier).size_eq
    change (declaration.apply (applyTo earlier (.new size fill))).cell? addr = _
    rw [Memory.cell?_apply, inductionHypothesis, sizes, Option.map_map]
    congr 1
    funext initial
    exact change_cell earlier initial declaration

/-- Where the latest declaration comes with a byte, the byte is there. -/
theorem raw_applyTo_cons (size : Nat) (fill : Fill) (history : Declarations)
    {declaration : Declaration} {addr : UInt16} {byte : UInt8}
    (inside : addr.toNat < Memory.clampSize size)
    (given : declaration.byte? (Memory.clampSize size) addr = some byte) :
    (applyTo (declaration :: history) (.new size fill)).raw addr = byte := by
  have short : addr.toNat < (fill.bytes (Memory.clampSize size)).length := by
    rwa [fill.length_bytes]
  have found := cell?_applyTo size fill (declaration :: history) addr
  rw [List.getElem?_eq_getElem short, Option.map_some] at found
  rw [Memory.raw, found]
  dsimp only
  rw [byte_cons, given, Option.getD_some]

end Declarations

namespace Declaration

variable {declaration : Declaration} {start length : Nat}

theorem isSome_state?_iff (range : declaration.range? = some (start, length)) (size : Nat)
    (addr : UInt16) :
    (declaration.state? size addr).isSome = true ↔ Covers size start length addr := by
  cases declaration with
  | ram | data | rom =>
    cases range
    simp [state?]
  | bind | initialized => cases range

theorem change_of_uncovered (range : declaration.range? = some (start, length)) {size : Nat}
    {addr : UInt16} (uncovered : ¬Covers size start length addr) :
    declaration.change size addr = id := by
  funext cell
  cases declaration with
  | ram | data | rom =>
    cases range
    exact if_neg uncovered
  | bind | initialized => cases range

end Declaration

namespace Declarations

/-- Declarations of any ranges leave a new memory at its size, and each cell as the latest region that covers it has
made it, but for exec hooks bound at the cell before since then, and marked exactly if a read or write hook was ever
bound to it. A region changes the cells that it covers and no others, with its bytes in their order, and it covers the
same cells if its end is computed in words that stop at the largest. -/
theorem latest_region_wins (size : Nat) (fill : Fill) (history : Declarations) :
    (history.applyTo (.new size fill)).size = Memory.clampSize size ∧
      (∀ addr, (history.applyTo (.new size fill)).cell? addr =
        ((fill.bytes (Memory.clampSize size))[addr.toNat]?).map
          (history.cell (Memory.clampSize size) addr)) ∧
      (∀ region start length, Declaration.range? region = some (start, length) → ∀ addr,
        ((region.state? (Memory.clampSize size) addr).isSome = true ↔
            Covers (Memory.clampSize size) start length addr) ∧
          (¬Covers (Memory.clampSize size) start length addr →
            (applyTo (region :: history) (.new size fill)).cell? addr =
              (history.applyTo (.new size fill)).cell? addr)) ∧
      (∀ start bytes addr index byte, bytes[index]? = some byte → addr.toNat = start + index →
        addr.toNat < Memory.clampSize size →
          (applyTo (.data start bytes :: history) (.new size fill)).raw addr = byte ∧
            (applyTo (.rom start bytes :: history) (.new size fill)).raw addr = byte) ∧
      ∀ (start length : UInt64) (addr : UInt16),
        (min start.toNat (Memory.clampSize size) ≤ addr.toNat ∧
            addr.toNat < min (saturatingSum start length) (Memory.clampSize size)) ↔
          Covers (Memory.clampSize size) start.toNat length.toNat addr := by
  have sound := sound_applyTo (Memory.sound_new size fill) history
  refine ⟨sound.size_eq, cell?_applyTo size fill history, ?_, ?_, ?_⟩
  · intro region start length range addr
    refine ⟨Declaration.isSome_state?_iff range _ addr, ?_⟩
    intro uncovered
    change (region.apply (history.applyTo (.new size fill))).cell? addr = _
    rw [Memory.cell?_apply, sound.size_eq, Declaration.change_of_uncovered range uncovered,
      Option.map_id, id]
  · intro start bytes addr index byte found place inside
    have short : index < bytes.length := (List.getElem?_eq_some_iff.mp found).1
    have covered : Covers (Memory.clampSize size) start bytes.length addr := by
      unfold Covers
      omega
    have offset : addr.toNat - start = index := by omega
    rw [← offset] at found
    constructor
    · exact raw_applyTo_cons size fill history inside ((if_pos covered).trans found)
    · exact raw_applyTo_cons size fill history inside ((if_pos covered).trans found)
  · exact clipped_iff_covers sound.size_le

/-- Write-protected memory with a read hook, declared as never-written RAM in part, and then an exec hook. -/
def overlaid : Declarations :=
  [.bind .exec 0 1 7, .ram 1 bound64 false, .rom 0 [0xEA, 0x60, 0xFF], .bind .read 2 1 8]

theorem overlaid_cells :
    (overlaid.applyTo (.new 4 .zero)).cell? 0 = some ⟨0xEA, { rom := true }⟩ ∧
      (overlaid.applyTo (.new 4 .zero)).cell? 1 = some ⟨0x60, {}⟩ ∧
      (overlaid.applyTo (.new 4 .zero)).cell? 2 =
        some ⟨0xFF, { uninitialized := true, hooked := true }⟩ ∧
      (applyTo (.data 2 [1, 2, 3] :: overlaid) (.new 4 .zero)).raw 3 = 2 := by
  obtain ⟨-, cells, -, bytes, -⟩ := latest_region_wins 4 .zero overlaid
  rw [cells, cells, cells]
  exact ⟨rfl, rfl, rfl, (bytes 2 [1, 2, 3] 3 1 2 rfl rfl (by decide)).1⟩

end Declarations

end Mos6502
