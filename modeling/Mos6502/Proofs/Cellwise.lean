import Mathlib.Data.List.Basic
import Mos6502.Proofs.Bare.Laws

/-!
# Memories cell by cell

What declarations and accesses do to memory they do to single cells. This is said here once: as equations for the
cell at an index or address, and as a relation of memories that relates their cells one by one.
-/

namespace Mos6502

namespace KeyStream

theorem length_blockBytes (key : List UInt32) (counter : Nat) :
    (blockBytes key counter).length = 64 := by
  have wordwise (block : Block) : (block.toList.flatMap wordBytes).length = 64 := by
    simp [List.length_flatMap, wordBytes]
  exact wordwise _

theorem length_bytes (seed : UInt64) (count : Nat) : (bytes seed count).length = count := by
  simp [bytes, List.length_flatMap, length_blockBytes]
  omega

end KeyStream

theorem Fill.length_bytes (fill : Fill) (size : Nat) : (fill.bytes size).length = size := by
  cases fill with
  | zero => exact List.length_replicate
  | random seed => exact KeyStream.length_bytes seed size

namespace Memory

theorem getElem?_changeRange (change : Cell → Cell) (start count : Nat) (cells : Array Cell)
    (index : Nat) :
    (changeRange change start count cells)[index]? =
      if start ≤ index ∧ index < start + count then cells[index]?.map change else cells[index]? := by
  induction count generalizing start cells with
  | zero =>
    have outside : ¬(start ≤ index ∧ index < start + 0) := by omega
    rw [if_neg outside]
    rfl
  | succ count inductionHypothesis =>
    rw [changeRange, inductionHypothesis, Array.getElem?_modify]
    by_cases here : start = index
    · have outside : ¬(start + 1 ≤ index ∧ index < start + 1 + count) := by omega
      have inside : start ≤ index ∧ index < start + (count + 1) := by omega
      rw [if_neg outside, if_pos here, if_pos inside]
    · have same : (start + 1 ≤ index ∧ index < start + 1 + count) ↔
          (start ≤ index ∧ index < start + (count + 1)) := by omega
      simp only [if_neg here, same]

theorem getElem?_changeBytes (change : UInt8 → Cell → Cell) (start : Nat) (bytes : List UInt8)
    (cells : Array Cell) (index : Nat) :
    (changeBytes change start bytes cells)[index]? =
      if start ≤ index then
        match bytes[index - start]? with
        | some byte => cells[index]?.map (change byte)
        | none => cells[index]?
      else cells[index]? := by
  induction bytes generalizing start cells with
  | nil => simp [changeBytes]
  | cons byte rest inductionHypothesis =>
    rw [changeBytes, inductionHypothesis, Array.getElem?_modify]
    rcases Nat.lt_trichotomy index start with before | rfl | behind
    · have outside : ¬start + 1 ≤ index := by omega
      have outsideToo : ¬start ≤ index := by omega
      have other : start ≠ index := by omega
      rw [if_neg outside, if_neg outsideToo, if_neg other]
    · have outside : ¬index + 1 ≤ index := by omega
      rw [if_neg outside, if_pos (Nat.le_refl index), if_pos rfl, Nat.sub_self]
      rfl
    · have inside : start + 1 ≤ index := by omega
      have insideToo : start ≤ index := by omega
      have other : start ≠ index := by omega
      have offset : index - start = index - (start + 1) + 1 := by omega
      rw [if_pos inside, if_pos insideToo, if_neg other, offset, List.getElem?_cons_succ]

theorem cell?_changeRange (mem : Memory) (hooks : List HookBinding) (change : Cell → Cell)
    (start count : Nat) (addr : UInt16) :
    cell? { cells := changeRange change start count mem.cells, hooks } addr =
      (mem.cell? addr).map fun cell =>
        if start ≤ addr.toNat ∧ addr.toNat < start + count then change cell else cell := by
  unfold cell?
  rw [getElem?_changeRange]
  split <;> simp

/-- The same hooks, and cells that are related one by one. -/
structure Cellwise (R : Cell → Cell → Prop) (before after : Memory) : Prop where
  hooks : after.hooks = before.hooks
  cells (index : Nat) : Option.Rel R before.cells[index]? after.cells[index]?

namespace Cellwise

variable {R : Cell → Cell → Prop} {before middle after : Memory}

theorem refl (each : ∀ cell, R cell cell) (mem : Memory) : mem.Cellwise R mem where
  hooks := rfl
  cells index := by
    cases mem.cells[index]? with
    | none => exact .none
    | some cell => exact .some (each cell)

theorem trans (each : ∀ {a b c}, R a b → R b c → R a c) (first : before.Cellwise R middle)
    (second : middle.Cellwise R after) : before.Cellwise R after where
  hooks := second.hooks.trans first.hooks
  cells index := by
    have left := first.cells index
    have right := second.cells index
    generalize before.cells[index]? = a at left
    generalize middle.cells[index]? = b at left right
    generalize after.cells[index]? = c at right
    cases left with
    | none =>
      cases right with
      | none => exact .none
    | some related =>
      cases right with
      | some relatedToo => exact .some (each related relatedToo)

theorem size (related : before.Cellwise R after) : after.size = before.size := by
  have none_iff (index : Nat) : before.size ≤ index ↔ after.size ≤ index := by
    unfold Memory.size
    rw [← Array.getElem?_eq_none_iff, ← Array.getElem?_eq_none_iff]
    have cells := related.cells index
    generalize before.cells[index]? = a at cells
    generalize after.cells[index]? = b at cells
    cases cells <;> simp
  exact Nat.le_antisymm ((none_iff before.size).mp (Nat.le_refl _))
    ((none_iff after.size).mpr (Nat.le_refl _))

theorem exists_cell? (related : before.Cellwise R after) {addr : UInt16} {cell : Cell}
    (found : after.cell? addr = some cell) :
    ∃ earlier, before.cell? addr = some earlier ∧ R earlier cell := by
  have cells := related.cells addr.toNat
  unfold cell? at found ⊢
  rw [found] at cells
  generalize before.cells[addr.toNat]? = a at cells
  cases cells with
  | some holds => exact ⟨_, rfl, holds⟩

end Cellwise

/-- Changing one cell relates memories if it relates that cell. -/
theorem cellwise_modify {R : Cell → Cell → Prop} (each : ∀ cell, R cell cell) {mem : Memory}
    {addr : UInt16} {change : Cell → Cell}
    (here : ∀ cell, mem.cell? addr = some cell → R cell (change cell)) :
    mem.Cellwise R (mem.modify addr change) where
  hooks := rfl
  cells index := by
    simp only [modify, Array.getElem?_modify]
    by_cases same : addr.toNat = index
    · subst same
      rw [if_pos rfl]
      unfold cell? at here
      generalize mem.cells[addr.toNat]? = found at here
      cases found with
      | none => exact .none
      | some cell => exact .some (here cell rfl)
    · rw [if_neg same]
      exact (Cellwise.refl each mem).cells index

/-- Changing a range of cells relates memories if it relates every cell. -/
theorem cellwise_changeRange {R : Cell → Cell → Prop} (each : ∀ cell, R cell cell)
    {change : Cell → Cell} (changed : ∀ cell, R cell (change cell)) (mem : Memory)
    (start count : Nat) :
    mem.Cellwise R { mem with cells := changeRange change start count mem.cells } where
  hooks := rfl
  cells index := by
    rw [getElem?_changeRange]
    cases mem.cells[index]? with
    | none => split <;> exact .none
    | some cell =>
      split
      · exact .some (changed cell)
      · exact .some (each cell)

/-- Changing cells by bytes relates memories if it relates every cell. -/
theorem cellwise_changeBytes {R : Cell → Cell → Prop} (each : ∀ cell, R cell cell)
    {change : UInt8 → Cell → Cell} (changed : ∀ byte cell, R cell (change byte cell)) (mem : Memory)
    (start : Nat) (bytes : List UInt8) :
    mem.Cellwise R { mem with cells := changeBytes change start bytes mem.cells } where
  hooks := rfl
  cells index := by
    rw [getElem?_changeBytes]
    cases mem.cells[index]? with
    | none =>
      split
      · split <;> exact .none
      · exact .none
    | some cell =>
      split
      · split
        next byte _ => exact .some (changed byte cell)
        next => exact .some (each cell)
      · exact .some (each cell)

theorem state_of_cell? {mem : Memory} {addr : UInt16} {cell : Cell}
    (found : mem.cell? addr = some cell) : mem.state addr = cell.state := by
  rw [state, found]

theorem state_modify {mem : Memory} {addr : UInt16} {change : Cell → Cell}
    (same : ∀ cell, mem.cell? addr = some cell → (change cell).state = cell.state)
    (other : UInt16) : (mem.modify addr change).state other = mem.state other := by
  unfold state
  rw [cell?_modify]
  by_cases here : addr = other
  · subst other
    rw [if_pos rfl]
    cases found : mem.cell? addr with
    | none => rfl
    | some cell => exact same cell found
  · rw [if_neg here]

/-- Past the end nothing is declared. -/
theorem state_of_size_le {mem : Memory} {addr : UInt16} (past : mem.size ≤ addr.toNat) :
    mem.state addr = .undeclared := by
  have absent : mem.cell? addr = none := Array.getElem?_eq_none_iff.mpr past
  rw [state, absent]

theorem state_new (size : Nat) (fill : Fill) (addr : UInt16) :
    (new size fill).state addr = .undeclared := by
  unfold state cell? new
  rw [List.getElem?_toArray, List.getElem?_map]
  cases (fill.bytes (clampSize size))[addr.toNat]? <;> rfl

theorem lt_size_of_lt_clip {mem : Memory} {start length index : Nat} (behind : start ≤ index)
    (inside : index < start + mem.clip start length) : index < mem.size := by
  unfold clip at inside
  omega

/-- The latest hook of a kind hides the earlier ones on the addresses it is bound to. -/
theorem isSome_hook?_bind (mem : Memory) (kind other : AccessKind) (start length hook : Nat)
    (addr : UInt16) :
    ((mem.bind kind start length hook).hook? other addr).isSome = true ↔
      (kind = other ∧ start ≤ addr.toNat ∧ addr.toNat < start + mem.clip start length) ∨
        (mem.hook? other addr).isSome = true := by
  have covers_iff :
      HookBinding.covers ⟨kind, start, start + mem.clip start length, hook⟩ other addr = true ↔
        kind = other ∧ start ≤ addr.toNat ∧ addr.toNat < start + mem.clip start length := by
    simp [HookBinding.covers, and_assoc]
  rw [← covers_iff]
  unfold hook? bind
  rw [List.find?_cons]
  cases HookBinding.covers ⟨kind, start, start + mem.clip start length, hook⟩ other addr with
  | true => simp
  | false => simp

theorem cell?_bind (mem : Memory) (kind : AccessKind) (start length hook : Nat) (addr : UInt16) :
    (mem.bind kind start length hook).cell? addr =
      (mem.cell? addr).map fun cell =>
        match kind with
        | .read | .write =>
          if start ≤ addr.toNat ∧ addr.toNat < start + mem.clip start length then cell.asHooked
          else cell
        | .exec =>
          if start + 1 ≤ addr.toNat ∧ addr.toNat < start + 1 + mem.clip start length then
            cell.asReadable
          else cell := by
  cases kind <;> exact cell?_changeRange mem _ _ _ _ addr

theorem size_bind (mem : Memory) (kind : AccessKind) (start length hook : Nat) :
    (mem.bind kind start length hook).size = mem.size := by
  have size_changeRange (change : Cell → Cell) (first count : Nat) :
      (changeRange change first count mem.cells).size = mem.cells.size :=
    (cellwise_changeRange (R := fun _ _ => True) (fun _ => trivial) (fun _ => trivial) mem first
      count).size
  cases kind <;> exact size_changeRange _ _ _

end Memory

end Mos6502
