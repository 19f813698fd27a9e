import Mos6502.CommandLine.Program
import Mos6502.Proofs.Bare.Operation
import Mos6502.Proofs.Cellwise
import Mos6502.World.Setup

/-!
# Memory as its history

What memory without hooks shows at an address is a function of what was done to it before: of the declarations that
cover the address and the accesses to it, and of nothing else. The history of a memory is read from its latest action
backwards. The latest declaration says of what kind the cell is, the latest action that gave it a content says what a
read finds, and the latest action that concerned the cell at all says whether reading it is reported.
-/

namespace Mos6502

variable {σ : Type}

/-- What can be done to memory from outside of any instruction, the binding of hooks aside. -/
inductive MemoryAction where
  | ram (start length : Nat) (zeroed : Bool)
  | data (start : Nat) (bytes : List UInt8)
  | rom (start : Nat) (bytes : List UInt8)
  | read (addr : UInt16)
  | fetch (addr : UInt16)
  | write (addr : UInt16) (value : UInt8)
deriving DecidableEq, Repr

/-- What a cell is declared as. -/
inductive Region where
  | undeclared
  | ram
  | rom
deriving DecidableEq, Repr

/-- Whether a range, clipped to a memory of `size` cells, has an address in it. -/
def Covers (size start length : Nat) (addr : UInt16) : Prop :=
  start ≤ addr.toNat ∧ addr.toNat < start + length ∧ addr.toNat < size

instance (size start length : Nat) (addr : UInt16) : Decidable (Covers size start length addr) :=
  inferInstanceAs (Decidable (_ ∧ _ ∧ _))

namespace MemoryAction

variable (size : Nat) (addr : UInt16)

/-- What the action declares the cell at an address as. -/
def region? : MemoryAction → Option Region
  | ram start length _ => if Covers size start length addr then some .ram else none
  | data start bytes => if Covers size start bytes.length addr then some .ram else none
  | rom start bytes => if Covers size start bytes.length addr then some .rom else none
  | read _ | fetch _ | write _ _ => none

/-- The content that the action gives to the cell at an address, which is in some region at the time. -/
def content? (region : Region) : MemoryAction → Option UInt8
  | ram start length zeroed => if zeroed ∧ Covers size start length addr then some 0 else none
  | data start bytes | rom start bytes =>
    if Covers size start bytes.length addr then bytes[addr.toNat - start]? else none
  | write other value => if other = addr ∧ region = .ram then some value else none
  | read _ | fetch _ => none

/-- Whether the cell at an address counts as never written after an action that concerns it. -/
def blank? : MemoryAction → Option Bool
  | ram start length zeroed => if Covers size start length addr then some (!zeroed) else none
  | data start bytes | rom start bytes =>
    if Covers size start bytes.length addr then some false else none
  | read other | fetch other | write other _ => if other = addr then some false else none

def Accesses : MemoryAction → Prop
  | read other | fetch other | write other _ => other = addr
  | ram _ _ _ | data _ _ | rom _ _ => False

end MemoryAction

/-- What was done to memory, the latest action first. -/
abbrev MemoryHistory := List MemoryAction

namespace MemoryHistory

variable (size : Nat) (addr : UInt16)

def region (history : MemoryHistory) : Region :=
  (history.findSome? (·.region? size addr)).getD .undeclared

def blank (history : MemoryHistory) : Bool :=
  (history.findSome? (·.blank? size addr)).getD false

/-- The latest content that an action gave to the cell, or else its initial content. -/
def content (initial : UInt8) : MemoryHistory → UInt8
  | [] => initial
  | action :: earlier =>
    (action.content? size addr (region size addr earlier)).getD (content initial earlier)

/-- The fault that an action leaves in an empty slot. -/
def report (history : MemoryHistory) : MemoryAction → Option Fault
  | .read addr =>
    if history.region size addr = .undeclared then some ⟨.readUndefined, addr⟩
    else if history.blank size addr then some ⟨.readUninitialized, addr⟩
    else none
  | .fetch addr =>
    if history.region size addr = .undeclared then some ⟨.executeUndefined, addr⟩
    else if history.blank size addr then some ⟨.executeUninitialized, addr⟩
    else none
  | .write addr _ =>
    match history.region size addr with
    | .rom => some ⟨.writeRom, addr⟩
    | .undeclared => some ⟨.writeUndefined, addr⟩
    | .ram => none
  | .ram _ _ _ | .data _ _ | .rom _ _ => none

end MemoryHistory

namespace World

/-- Does something to memory with an empty fault slot. Reads and fetches answer with a byte. -/
def act (host : Host σ) (action : MemoryAction) (w : World σ) : Option UInt8 × World σ :=
  let w := { w with machine := { w.machine with slot := {} } }
  match action with
  | .ram start length zeroed => (none, w.mapMem (·.declareRam start length zeroed))
  | .data start bytes => (none, w.mapMem (·.declareData start bytes))
  | .rom start bytes => (none, w.mapMem (·.declareRom start bytes))
  | .read addr => (w.read host addr).map some id
  | .fetch addr => (w.fetch host addr).map some id
  | .write addr value => (none, w.write host addr value)

/-- The world after a history. -/
def after (host : Host σ) : MemoryHistory → World σ → World σ
  | [], w => w
  | action :: earlier, w => ((w.after host earlier).act host action).2

end World

namespace Memory

theorem raw_new (size : Nat) (fill : Fill) (addr : UInt16) :
    (new size fill).raw addr = (fill.bytes (clampSize size)).getD addr.toNat 0 := by
  unfold raw cell? new
  rw [List.getElem?_toArray, List.getElem?_map, List.getD_eq_getElem?_getD]
  cases (fill.bytes (clampSize size))[addr.toNat]? <;> rfl

end Memory

/-- The part of an action on one cell: cells take part in what is done to memory each on its own. -/
def MemoryAction.change (size : Nat) (addr : UInt16) (action : MemoryAction) (cell : Cell) : Cell :=
  match action with
  | ram start length zeroed =>
    if Covers size start length addr then
      if zeroed then cell.asZeroed else cell.asUninitialized
    else cell
  | data start bytes =>
    if Covers size start bytes.length addr then
      (bytes[addr.toNat - start]?).elim cell fun byte => cell.asData byte
    else cell
  | rom start bytes =>
    if Covers size start bytes.length addr then
      (bytes[addr.toNat - start]?).elim cell fun byte => cell.asRom byte
    else cell
  | read other | fetch other =>
    if other = addr ∧ cell.state.undefined = false then cell.asInitialized else cell
  | write other value =>
    if other = addr ∧ cell.state.rom = false ∧ cell.state.undefined = false then
      (cell.withByte value).asInitialized
    else cell

namespace Cell

theorem asInitialized_of_written {cell : Cell} (written : cell.state.uninitialized = false) :
    cell.asInitialized = cell := by
  obtain ⟨byte, state⟩ := cell
  change state.uninitialized = false at written
  unfold asInitialized
  rw [← written]

end Cell

namespace Memory

variable (mem : Memory) {addr other : UInt16} {step : Cell → Cell}

theorem cell?_eq_map (keeps : ∀ cell, mem.cell? addr = some cell → step cell = cell) :
    mem.cell? addr = (mem.cell? addr).map step := by
  cases found : mem.cell? addr with
  | none => rfl
  | some cell => rw [Option.map_some, keeps cell found]

/-- Changing one cell changes it as the part that falls to it does, if that part is for this cell alone. -/
theorem cell?_modify_eq_map {change : Cell → Cell}
    (here : other = addr → ∀ cell, mem.cell? addr = some cell → step cell = change cell)
    (elsewhere : other ≠ addr → ∀ cell, step cell = cell) :
    (mem.modify other change).cell? addr = (mem.cell? addr).map step := by
  rw [cell?_modify]
  by_cases same : other = addr
  · rw [if_pos same]
    cases found : mem.cell? addr with
    | none => rfl
    | some cell => rw [Option.map_some, Option.map_some, here same cell found]
  · rw [if_neg same]
    exact mem.cell?_eq_map fun cell _ => elsewhere same cell

end Memory

namespace Machine

theorem cell?_noteRead (m : Machine) (undefined uninitialized : FaultKind) (size : Nat)
    (other addr : UInt16) :
    (m.noteRead undefined uninitialized other).mem.cell? addr =
      (m.mem.cell? addr).map ((MemoryAction.read other).change size addr) := by
  by_cases undeclared : (m.mem.state other).undefined = true
  · rw [noteRead_of_undefined undeclared]
    apply m.mem.cell?_eq_map
    intro cell found
    apply if_neg
    rintro ⟨rfl, declared⟩
    rw [Memory.state_of_cell? found, declared] at undeclared
    cases undeclared
  · have declared := eq_false_of_ne_true undeclared
    cases blank : (m.mem.state other).uninitialized with
    | true =>
      rw [noteRead_of_uninitialized declared blank]
      apply m.mem.cell?_modify_eq_map
      · rintro rfl cell found
        rw [Memory.state_of_cell? found] at declared
        exact if_pos ⟨rfl, declared⟩
      · intro elsewhere cell
        exact if_neg fun both => elsewhere both.1
    | false =>
      rw [noteRead_of_readable declared blank]
      apply Memory.cell?_eq_map
      intro cell found
      by_cases here : other = addr
      · subst here
        rw [Memory.state_of_cell? found] at declared blank
        exact (if_pos ⟨rfl, declared⟩).trans (Cell.asInitialized_of_written blank)
      · exact if_neg fun both => here both.1

theorem cell?_write (m : Machine) (size : Nat) (other : UInt16) (value : UInt8) (addr : UInt16) :
    (m.write other value).mem.cell? addr =
      (m.mem.cell? addr).map ((MemoryAction.write other value).change size addr) := by
  by_cases writable : (m.mem.state other).rom = false ∧ (m.mem.state other).undefined = false
  · rw [write_of_writable writable.1 writable.2]
    change ((m.mem.store other value).markInitialized other).cell? addr = _
    rw [Memory.markInitialized_store]
    apply Memory.cell?_modify_eq_map
    · rintro rfl cell found
      rw [Memory.state_of_cell? found] at writable
      exact if_pos ⟨rfl, writable⟩
    · intro elsewhere cell
      exact if_neg fun both => elsewhere both.1
  · have rejected : (m.write other value).mem = m.mem := by
      unfold write
      split
      · rfl
      · split
        · rfl
        next open_ declared =>
          exact absurd ⟨eq_false_of_ne_true open_, eq_false_of_ne_true declared⟩ writable
    rw [rejected]
    apply Memory.cell?_eq_map
    intro cell found
    apply if_neg
    rintro ⟨rfl, both⟩
    rw [Memory.state_of_cell? found] at writable
    exact writable both

end Machine

namespace Memory

theorem cell?_changeBytes (mem : Memory) (change : UInt8 → Cell → Cell) (start : Nat)
    (bytes : List UInt8) (addr : UInt16) :
    cell? { mem with cells := changeBytes change start bytes mem.cells } addr =
      (mem.cell? addr).map fun cell =>
        if Covers mem.size start bytes.length addr then
          (bytes[addr.toNat - start]?).elim cell fun byte => change byte cell
        else cell := by
  unfold cell?
  rw [getElem?_changeBytes]
  cases found : mem.cells[addr.toNat]? with
  | none =>
    split
    · split <;> rfl
    · rfl
  | some cell =>
    have inside : addr.toNat < mem.size := (Array.getElem?_eq_some_iff.mp found).1
    by_cases behind : start ≤ addr.toNat
    · rw [if_pos behind]
      cases given : bytes[addr.toNat - start]? with
      | none => simp
      | some byte =>
        have short : addr.toNat - start < bytes.length := (List.getElem?_eq_some_iff.mp given).1
        have covered : Covers mem.size start bytes.length addr := ⟨behind, by omega, inside⟩
        simp [covered]
    · have bare : ¬Covers mem.size start bytes.length addr := fun covered => behind covered.1
      simp [behind, bare]

theorem cell?_declareRam (mem : Memory) (start length : Nat) (zeroed : Bool) (addr : UInt16) :
    (mem.declareRam start length zeroed).cell? addr =
      (mem.cell? addr).map ((MemoryAction.ram start length zeroed).change mem.size addr) := by
  unfold declareRam
  rw [cell?_changeRange]
  cases found : mem.cell? addr with
  | none => rfl
  | some cell =>
    have inside : addr.toNat < mem.size := (Array.getElem?_eq_some_iff.mp found).1
    have same : (start ≤ addr.toNat ∧ addr.toNat < start + mem.clip start length) ↔
        Covers mem.size start length addr := by
      unfold clip Covers
      omega
    simp only [Option.map_some, MemoryAction.change, same]
    cases zeroed <;> rfl

end Memory

namespace MicroOp

theorem hookFree_perform (host : Host σ) (op : MicroOp) {w : World σ} (free : w.machine.HookFree) :
    (op.perform host w).2.machine.HookFree ∧
      (op.perform host w).2.machine.mem.size = w.machine.mem.size := by
  obtain ⟨-, machine⟩ := op.perform_bare host free.direct
  have fixed := (op.change_effect w.machine).fixture
  rw [machine]
  exact ⟨(Machine.hooks_eq fixed).trans free, congrArg Fixture.size fixed⟩

end MicroOp

namespace World

theorem cell?_act (host : Host σ) (action : MemoryAction) {w : World σ}
    (free : w.machine.HookFree) (addr : UInt16) :
    (w.act host action).2.machine.mem.cell? addr =
      (w.machine.mem.cell? addr).map (action.change w.machine.mem.size addr) := by
  let v : World σ := { w with machine := { w.machine with slot := {} } }
  have freeToo : v.machine.HookFree := free
  cases action with
  | ram start length zeroed => exact Memory.cell?_declareRam w.machine.mem start length zeroed addr
  | data start bytes =>
    exact Memory.cell?_changeBytes w.machine.mem (fun byte => Cell.asData byte) start bytes addr
  | rom start bytes =>
    exact Memory.cell?_changeBytes w.machine.mem (fun byte => Cell.asRom byte) start bytes addr
  | read other =>
    change (v.read host other).2.machine.mem.cell? addr = _
    rw [read, (readAs_bare host freeToo.direct _ _ other).2]
    exact v.machine.cell?_noteRead _ _ v.machine.mem.size other addr
  | fetch other =>
    change (v.fetch host other).2.machine.mem.cell? addr = _
    rw [fetch, (readAs_bare host freeToo.direct _ _ other).2]
    exact v.machine.cell?_noteRead _ _ v.machine.mem.size other addr
  | write other value =>
    change (v.write host other value).machine.mem.cell? addr = _
    rw [write_bare host freeToo.direct]
    exact v.machine.cell?_write v.machine.mem.size other value addr

theorem hookFree_act (host : Host σ) (action : MemoryAction) {w : World σ}
    (free : w.machine.HookFree) :
    (w.act host action).2.machine.HookFree ∧
      (w.act host action).2.machine.mem.size = w.machine.mem.size := by
  let v : World σ := { w with machine := { w.machine with slot := {} } }
  have freeToo : v.machine.HookFree := free
  cases action with
  | ram start length zeroed =>
    refine ⟨free, ?_⟩
    exact (Memory.cellwise_changeRange (R := fun _ _ => True) (fun _ => trivial)
      (fun _ => trivial) w.machine.mem start _).size
  | data start bytes | rom start bytes =>
    refine ⟨free, ?_⟩
    exact (Memory.cellwise_changeBytes (R := fun _ _ => True) (fun _ => trivial)
      (fun _ _ => trivial) w.machine.mem start bytes).size
  | read other => exact (MicroOp.load other).hookFree_perform host freeToo
  | fetch other => exact (MicroOp.fetch other).hookFree_perform host freeToo
  | write other value => exact (MicroOp.store other value).hookFree_perform host freeToo

end World

/-- The state of a cell by its region. -/
def Region.state (blank : Bool) : Region → CellState
  | undeclared => .undeclared
  | ram => { uninitialized := blank }
  | rom => { rom := true }

namespace Region

theorem state_ram (blank : Bool) : ram.state blank = { uninitialized := blank } := rfl

theorem state_rom (blank : Bool) : rom.state blank = { rom := true } := rfl

theorem hooked_state (blank : Bool) (region : Region) : (region.state blank).hooked = false := by
  cases region <;> rfl

end Region

namespace MemoryHistory

variable (size : Nat) (addr : UInt16) (history : MemoryHistory)

/-- The cell that a history leaves behind. -/
def cell (initial : UInt8) : Cell where
  byte := history.content size addr initial
  state := (history.region size addr).state (history.blank size addr)

theorem region_cons (action : MemoryAction) :
    region size addr (action :: history) =
      (action.region? size addr).getD (history.region size addr) := by
  unfold region
  rw [List.findSome?_cons]
  cases action.region? size addr <;> rfl

theorem blank_cons (action : MemoryAction) :
    blank size addr (action :: history) =
      (action.blank? size addr).getD (history.blank size addr) := by
  unfold blank
  rw [List.findSome?_cons]
  cases action.blank? size addr <;> rfl

/-- The history grows as its cell changes. -/
theorem change_cell (initial : UInt8) (action : MemoryAction) :
    action.change size addr (history.cell size addr initial) =
      cell size addr (action :: history) initial := by
  unfold cell
  rw [region_cons, blank_cons]
  cases action with
  | ram start length zeroed =>
    by_cases covered : Covers size start length addr
    · have unhooked := Region.hooked_state (history.blank size addr) (history.region size addr)
      cases zeroed with
      | true =>
        simp [MemoryAction.change, content, MemoryAction.region?, MemoryAction.content?,
          MemoryAction.blank?, covered, Cell.asZeroed, unhooked, Region.state_ram]
      | false =>
        simp [MemoryAction.change, content, MemoryAction.region?, MemoryAction.content?,
          MemoryAction.blank?, covered, Cell.asUninitialized, unhooked, Region.state_ram]
    · simp [MemoryAction.change, content, MemoryAction.region?, MemoryAction.content?,
        MemoryAction.blank?, covered]
  | data start bytes | rom start bytes =>
    by_cases covered : Covers size start bytes.length addr
    · have unhooked := Region.hooked_state (history.blank size addr) (history.region size addr)
      obtain ⟨behind, before, -⟩ := id covered
      have short : addr.toNat - start < bytes.length := by omega
      simp [MemoryAction.change, content, MemoryAction.region?, MemoryAction.content?,
        MemoryAction.blank?, covered, short, Cell.asData, Cell.asRom, unhooked, Region.state_ram,
        Region.state_rom]
    · simp [MemoryAction.change, content, MemoryAction.region?, MemoryAction.content?,
        MemoryAction.blank?, covered]
  | read other | fetch other =>
    by_cases here : other = addr
    · cases found : history.region size addr <;>
        simp [MemoryAction.change, content, MemoryAction.region?, MemoryAction.content?,
          MemoryAction.blank?, here, Cell.asInitialized, Region.state, CellState.undeclared]
    · simp [MemoryAction.change, content, MemoryAction.region?, MemoryAction.content?,
        MemoryAction.blank?, here]
  | write other value =>
    by_cases here : other = addr
    · cases found : history.region size addr <;>
        simp [MemoryAction.change, content, MemoryAction.region?, MemoryAction.content?,
          MemoryAction.blank?, here, found, Cell.asInitialized, Cell.withByte, Region.state,
          CellState.undeclared]
    · simp [MemoryAction.change, content, MemoryAction.region?, MemoryAction.content?,
        MemoryAction.blank?, here]

theorem content_of_size_le {size : Nat} {addr : UInt16} (past : size ≤ addr.toNat) (initial : UInt8)
    (history : MemoryHistory) :
    history.region size addr = .undeclared ∧ history.content size addr initial = initial := by
  have bare (start length : Nat) : ¬Covers size start length addr :=
    fun covered => absurd covered.2.2 (Nat.not_lt.mpr past)
  induction history with
  | nil => exact ⟨rfl, rfl⟩
  | cons action earlier inductionHypothesis =>
    obtain ⟨undeclared, unchanged⟩ := inductionHypothesis
    rw [region_cons]
    cases action <;>
      simp [MemoryAction.region?, MemoryAction.content?, content, bare, undeclared, unchanged]

/-- Only RAM can count as never written. -/
theorem region_of_blank {size : Nat} {addr : UInt16} {history : MemoryHistory}
    (blank : history.blank size addr = true) : history.region size addr = .ram := by
  induction history with
  | nil => cases blank
  | cons action earlier inductionHypothesis =>
    rw [blank_cons] at blank
    rw [region_cons]
    cases action with
    | ram start length zeroed =>
      by_cases covered : Covers size start length addr
      · simp [MemoryAction.region?, covered]
      · simp only [MemoryAction.blank?, covered, if_false] at blank
        simpa [MemoryAction.region?, covered] using inductionHypothesis blank
    | data start bytes | rom start bytes =>
      by_cases covered : Covers size start bytes.length addr
      · simp [MemoryAction.blank?, covered] at blank
      · simp only [MemoryAction.blank?, covered, if_false] at blank
        simpa [MemoryAction.region?, covered] using inductionHypothesis blank
    | read other | fetch other | write other value =>
      by_cases here : other = addr
      · simp [MemoryAction.blank?, here] at blank
      · simp only [MemoryAction.blank?, here, if_false] at blank
        exact inductionHypothesis blank

/-- After an access a cell counts as written for as long as no declaration says otherwise. -/
theorem blank_of_accesses {size : Nat} {addr : UInt16} {access : MemoryAction}
    (accesses : access.Accesses addr) {later : MemoryHistory} (earlier : MemoryHistory)
    (kept : ∀ action ∈ later, action.blank? size addr ≠ some true) :
    blank size addr (later ++ access :: earlier) = false := by
  induction later with
  | nil =>
    rw [List.nil_append, blank_cons]
    cases access with
    | read other | fetch other | write other value =>
      obtain rfl : other = addr := accesses
      simp [MemoryAction.blank?]
    | ram | data | rom => cases accesses
  | cons action later inductionHypothesis =>
    have rest := inductionHypothesis fun action member => kept action (List.mem_cons_of_mem _ member)
    have here := kept action List.mem_cons_self
    rw [List.cons_append, blank_cons, rest]
    cases found : action.blank? size addr with
    | none => rfl
    | some value =>
      rw [found] at here
      cases value with
      | true => exact absurd rfl here
      | false => rfl

theorem report_uninitialized_iff (size : Nat) (history : MemoryHistory) (action : MemoryAction)
    (addr : UInt16) :
    (history.report size action = some ⟨.readUninitialized, addr⟩ ∨
        history.report size action = some ⟨.executeUninitialized, addr⟩) ↔
      (action = .read addr ∨ action = .fetch addr) ∧ history.blank size addr = true := by
  cases action with
  | ram | data | rom => simp [report]
  | read other =>
    cases blank : history.blank size other with
    | true => grind [report, region_of_blank]
    | false => grind [report]
  | fetch other =>
    cases blank : history.blank size other with
    | true => grind [report, region_of_blank]
    | false => grind [report]
  | write other value =>
    cases found : history.region size other <;> simp [report, found]

end MemoryHistory

namespace Machine

theorem fault_noteRead {m : Machine} (empty : m.slot = {}) (undefined uninitialized : FaultKind)
    (addr : UInt16) :
    (m.noteRead undefined uninitialized addr).slot.fault =
      if (m.mem.state addr).undefined then some ⟨undefined, addr⟩
      else if (m.mem.state addr).uninitialized then some ⟨uninitialized, addr⟩
      else none := by
  unfold noteRead
  split
  · exact fault_raise empty undefined addr
  · split
    · exact fault_raise empty uninitialized addr
    · rw [empty]

theorem fault_write {m : Machine} (empty : m.slot = {}) (addr : UInt16) (value : UInt8) :
    (m.write addr value).slot.fault =
      if (m.mem.state addr).rom then some ⟨.writeRom, addr⟩
      else if (m.mem.state addr).undefined then some ⟨.writeUndefined, addr⟩
      else none := by
  unfold write
  split
  · exact fault_raise empty .writeRom addr
  · split
    · exact fault_raise empty .writeUndefined addr
    · change m.slot.fault = none
      rw [empty]

end Machine

namespace World

variable {w : World σ}

theorem hookFree_after (host : Host σ) (free : w.machine.HookFree) (history : MemoryHistory) :
    (w.after host history).machine.HookFree ∧
      (w.after host history).machine.mem.size = w.machine.mem.size := by
  induction history with
  | nil => exact ⟨free, rfl⟩
  | cons action earlier inductionHypothesis =>
    obtain ⟨stillFree, sameSize⟩ := inductionHypothesis
    obtain ⟨freeAfter, sizeAfter⟩ := hookFree_act host action stillFree
    exact ⟨freeAfter, sizeAfter.trans sameSize⟩

/-- Every cell follows its own history. -/
theorem cell?_after (host : Host σ) (free : w.machine.HookFree)
    (undeclared : ∀ addr, w.machine.mem.state addr = .undeclared) (history : MemoryHistory)
    (addr : UInt16) :
    (w.after host history).machine.mem.cell? addr =
      (w.machine.mem.cell? addr).map fun cell =>
        history.cell w.machine.mem.size addr cell.byte := by
  induction history with
  | nil =>
    change w.machine.mem.cell? addr = _
    cases found : w.machine.mem.cell? addr with
    | none => rfl
    | some cell =>
      have state := Memory.state_of_cell? found
      rw [undeclared addr] at state
      rw [Option.map_some, Option.some.injEq]
      obtain ⟨byte, _⟩ := cell
      exact congrArg (Cell.mk byte) state.symm
  | cons action earlier inductionHypothesis =>
    obtain ⟨stillFree, sameSize⟩ := hookFree_after host free earlier
    -- The latest action changes each cell on its own, and finds it as the earlier ones have left it.
    change ((w.after host earlier).act host action).2.machine.mem.cell? addr = _
    rw [cell?_act host action stillFree, sameSize, inductionHypothesis, Option.map_map]
    congr 1
    funext cell
    exact MemoryHistory.change_cell w.machine.mem.size addr earlier cell.byte action

theorem raw_after (host : Host σ) (free : w.machine.HookFree)
    (undeclared : ∀ addr, w.machine.mem.state addr = .undeclared) (history : MemoryHistory)
    (addr : UInt16) :
    (w.after host history).machine.mem.raw addr =
      history.content w.machine.mem.size addr (w.machine.mem.raw addr) := by
  unfold Memory.raw
  rw [cell?_after host free undeclared]
  cases found : w.machine.mem.cell? addr with
  | none =>
    have past : w.machine.mem.size ≤ addr.toNat := Array.getElem?_eq_none_iff.mp found
    exact (MemoryHistory.content_of_size_le past 0 history).2.symm
  | some cell => rfl

theorem state_after (host : Host σ) (free : w.machine.HookFree)
    (undeclared : ∀ addr, w.machine.mem.state addr = .undeclared) (history : MemoryHistory)
    (addr : UInt16) :
    (w.after host history).machine.mem.state addr =
      (history.region w.machine.mem.size addr).state (history.blank w.machine.mem.size addr) := by
  unfold Memory.state
  rw [cell?_after host free undeclared]
  cases found : w.machine.mem.cell? addr with
  | none =>
    have past : w.machine.mem.size ≤ addr.toNat := Array.getElem?_eq_none_iff.mp found
    rw [(MemoryHistory.content_of_size_le past 0 history).1]
    rfl
  | some cell => rfl

theorem act_of_hookFree (host : Host σ) (free : w.machine.HookFree) (addr : UInt16) :
    (w.act host (.read addr)).1 = some (w.machine.mem.raw addr) ∧
      (w.act host (.fetch addr)).1 = some (w.machine.mem.raw addr) := by
  have freeToo : { w with machine := { w.machine with slot := {} } }.machine.HookFree := free
  constructor
  · exact congrArg some (readAs_bare host freeToo.direct .readUndefined .readUninitialized addr).1
  · exact congrArg some (readAs_bare host freeToo.direct .executeUndefined .executeUninitialized addr).1

theorem report_of_states (host : Host σ) (free : w.machine.HookFree) (size : Nat)
    {history : MemoryHistory}
    (states : ∀ addr, w.machine.mem.state addr =
      (history.region size addr).state (history.blank size addr))
    (action : MemoryAction) :
    (w.act host action).2.machine.slot.fault = history.report size action := by
  let v : World σ := { w with machine := { w.machine with slot := {} } }
  have freeToo : v.machine.HookFree := free
  have noted (undefined uninitialized : FaultKind) (addr : UInt16) :
      (v.machine.noteRead undefined uninitialized addr).slot.fault =
        if history.region size addr = .undeclared then some ⟨undefined, addr⟩
        else if history.blank size addr then some ⟨uninitialized, addr⟩
        else none := by
    rw [Machine.fault_noteRead rfl, states addr]
    cases blank : history.blank size addr with
    | true =>
      rw [MemoryHistory.region_of_blank blank]
      rfl
    | false => cases history.region size addr <;> rfl
  cases action with
  | ram | data | rom => rfl
  | read addr =>
    change (v.read host addr).2.machine.slot.fault = _
    rw [read, (readAs_bare host freeToo.direct _ _ addr).2, noted]
    rfl
  | fetch addr =>
    change (v.fetch host addr).2.machine.slot.fault = _
    rw [fetch, (readAs_bare host freeToo.direct _ _ addr).2, noted]
    rfl
  | write addr value =>
    change (v.write host addr value).machine.slot.fault = _
    rw [write_bare host freeToo.direct, Machine.fault_write rfl, states addr, MemoryHistory.report]
    cases history.region size addr <;> rfl

/-- A new memory without hooks is a faithful store. After any history a read finds the content that the history
gives to the cell, and every action reports what the history calls for. In particular reading is reported as
uninitialized exactly if the latest action that concerned the cell was a declaration with unknown content, so that an
access is followed by such a report only with such a declaration in between. -/
theorem memory_follows_history (host : Host σ) {size : Nat} {fill : Fill}
    (new : w.machine.mem = .new size fill) (history : MemoryHistory) :
    (∀ addr,
      ((w.after host history).act host (.read addr)).1 =
          some (history.content (Memory.clampSize size) addr
            ((fill.bytes (Memory.clampSize size)).getD addr.toNat 0)) ∧
        ((w.after host history).act host (.fetch addr)).1 =
          some (history.content (Memory.clampSize size) addr
            ((fill.bytes (Memory.clampSize size)).getD addr.toNat 0))) ∧
    (∀ action, ((w.after host history).act host action).2.machine.slot.fault =
      history.report (Memory.clampSize size) action) ∧
    (∀ action addr,
      (((w.after host history).act host action).2.machine.slot.fault =
            some ⟨.readUninitialized, addr⟩ ∨
          ((w.after host history).act host action).2.machine.slot.fault =
            some ⟨.executeUninitialized, addr⟩) ↔
        (action = .read addr ∨ action = .fetch addr) ∧
          history.blank (Memory.clampSize size) addr = true) ∧
    (∀ addr later access earlier, history = later ++ access :: earlier → access.Accesses addr →
      (∀ action ∈ later, action.blank? (Memory.clampSize size) addr ≠ some true) →
      ∀ action,
        ((w.after host history).act host action).2.machine.slot.fault ≠
            some ⟨.readUninitialized, addr⟩ ∧
          ((w.after host history).act host action).2.machine.slot.fault ≠
            some ⟨.executeUninitialized, addr⟩) := by
  have free : w.machine.HookFree := by rw [Machine.HookFree, new]; rfl
  have undeclared (addr : UInt16) : w.machine.mem.state addr = .undeclared := by
    rw [new]
    exact Memory.state_new size fill addr
  have sizes : w.machine.mem.size = Memory.clampSize size := by
    rw [new]
    simp [Memory.new, Memory.size, Fill.length_bytes]
  have initial (addr : UInt16) :
      w.machine.mem.raw addr = (fill.bytes (Memory.clampSize size)).getD addr.toNat 0 := by
    rw [new]
    exact Memory.raw_new size fill addr
  have freeAfter := (hookFree_after host free history).1
  have stored := raw_after host free undeclared history
  have states := state_after host free undeclared history
  rw [sizes] at stored states
  have reports := report_of_states host freeAfter (Memory.clampSize size) states
  refine ⟨?_, reports, ?_, ?_⟩
  · intro addr
    rw [← initial, ← stored]
    exact act_of_hookFree host freeAfter addr
  · intro action addr
    rw [reports action]
    exact MemoryHistory.report_uninitialized_iff (Memory.clampSize size) history action addr
  · rintro addr later access earlier rfl accesses kept action
    have written := MemoryHistory.blank_of_accesses accesses earlier kept
    rw [reports action, ← not_or, MemoryHistory.report_uninitialized_iff, written]
    rintro ⟨-, blank⟩
    cases blank

/-- Never-written RAM that is read once and then write-protected in part. -/
def sealedRam : MemoryHistory :=
  [.write 1 7, .rom 1 [9], .read 0, .ram 0 2 false]

theorem sealedRam_followed :
    ((after CommandLine.hooklessHost sealedRam (ofSettings { memSize := 4 } {} ())).act
        CommandLine.hooklessHost (.read 1)).1 = some 9 ∧
      ((after CommandLine.hooklessHost sealedRam (ofSettings { memSize := 4 } {} ())).act
        CommandLine.hooklessHost (.write 1 7)).2.machine.slot.fault = some ⟨.writeRom, 1⟩ ∧
      ((after CommandLine.hooklessHost sealedRam (ofSettings { memSize := 4 } {} ())).act
        CommandLine.hooklessHost (.read 0)).2.machine.slot.fault ≠ some ⟨.readUninitialized, 0⟩ := by
  have new : (ofSettings { memSize := 4 } {} () : World Unit).machine.mem = .new 4 .zero := rfl
  obtain ⟨found, reports, -, once⟩ :=
    memory_follows_history CommandLine.hooklessHost new sealedRam
  have quiet : ∀ action ∈ ([.write 1 7, .rom 1 [9]] : MemoryHistory),
      action.blank? (Memory.clampSize 4) 0 ≠ some true := by
    decide
  refine ⟨(found 1).1, reports (.write 1 7), ?_⟩
  exact (once 0 [.write 1 7, .rom 1 [9]] (.read 0) [.ram 0 2 false] rfl rfl quiet (.read 0)).1

end World

end Mos6502
