import Mathlib.Algebra.GroupWithZero.Nat
import Mathlib.Data.List.Chain
import Mos6502.Proofs.Inspection

/-!
# What a listing covers

A listing goes through memory from an address on. Each entry shows the bytes of one instruction, where a byte that
cannot be read stands for an instruction of its own, and the next entry begins behind them; so the bytes of all entries
are those of memory, one after the other, with no gap and none shown twice. Addresses go around at the end of the
address space, and past the end of memory there is nothing to read.
-/

namespace Mos6502

/-- The bytes of a stretch of memory as far as they are readable. -/
def Memory.stretch (mem : Memory) (start : UInt16) (count : Nat) : List (Option UInt8) :=
  (List.range count).map fun i => mem.byte? (start + UInt16.ofNat i)

theorem Memory.stretch_add (mem : Memory) (start : UInt16) (first second : Nat) :
    mem.stretch start (first + second) =
      mem.stretch start first ++ mem.stretch (start + UInt16.ofNat first) second := by
  simp [stretch, List.range_add, UInt16.ofNat_add, UInt16.add_assoc]

/-- The bytes that an entry shows. -/
def ListingEntry.shown (entry : ListingEntry) : List (Option UInt8) :=
  entry.opcode :: entry.operands

/-- Entries that show memory from an address on, each where the one before it ends. -/
structure CoversMemory (mem : Memory) (labels : Labels) (start : UInt16) (entries : List ListingEntry) :
    Prop where
  starts : ∀ first ∈ entries.head?, first.addr = start
  continues : entries.IsChain fun entry next => next.addr = entry.following
  lengths : ∀ entry ∈ entries, 1 ≤ entry.instruction.length ∧ entry.instruction.length ≤ 3
  inspected : ∀ entry ∈ entries, entry = inspect mem labels entry.addr
  bytes : entries.flatMap ListingEntry.shown =
    mem.stretch start (entries.map fun entry => entry.instruction.length).sum

section

variable (mem : Memory) (labels : Labels)

theorem Instruction.length_bounds (instruction : Instruction) :
    1 ≤ instruction.length ∧ instruction.length ≤ 3 := by
  rcases instruction.length_cases with one | two | three <;> omega

/-- An unreadable opcode is listed as an instruction of one byte, so it has no operands to show. -/
theorem shown_inspect (addr : UInt16) :
    (inspect mem labels addr).shown =
      mem.stretch addr (inspect mem labels addr).instruction.length := by
  obtain ⟨operands, counted⟩ :=
    Nat.exists_eq_add_of_le' (inspect mem labels addr).instruction.length_bounds.1
  rw [ListingEntry.shown, operands_inspect, counted, Nat.add_sub_cancel, Memory.stretch, List.range_succ_eq_map]
  simp [inspect, Function.comp_def]

theorem length_disassemble (addr : UInt16) (count : Nat) :
    (disassemble mem labels addr count).length = count := by
  induction count generalizing addr with
  | zero => rfl
  | succ count inductionHypothesis => rw [disassemble, List.length_cons, inductionHypothesis]

theorem covers_disassemble (addr : UInt16) (count : Nat) :
    CoversMemory mem labels addr (disassemble mem labels addr count) := by
  induction count generalizing addr with
  | zero => constructor <;> simp [disassemble, Memory.stretch]
  | succ count inductionHypothesis =>
    obtain ⟨starts, continues, lengths, inspected, bytes⟩ :=
      inductionHypothesis (inspect mem labels addr).following
    change CoversMemory mem labels addr (inspect mem labels addr ::
      disassemble mem labels (inspect mem labels addr).following count)
    constructor
    case starts =>
      intro first isFirst
      cases isFirst
      rfl
    case continues => exact List.isChain_cons.mpr ⟨starts, continues⟩
    case lengths => exact List.forall_mem_cons.mpr ⟨Instruction.length_bounds _, lengths⟩
    case inspected => exact List.forall_mem_cons.mpr ⟨rfl, inspected⟩
    case bytes =>
      rw [List.flatMap_cons, List.map_cons, List.sum_cons, Memory.stretch_add, bytes, shown_inspect]
      rfl

/-- A listing has as many entries as it was asked for, and they cover memory from its start on. -/
theorem listing_covers_memory (start : UInt16) (count : Nat) :
    (disassemble mem labels start count).length = count ∧
      CoversMemory mem labels start (disassemble mem labels start count) :=
  ⟨length_disassemble mem labels start count, covers_disassemble mem labels start count⟩

end

/-- LDA with both operand bytes past the end of memory, and past the end once more. -/
example :
    (disassemble ((Memory.new 1 .zero).declareData 0 [0xAD]) {} 0 2).map ListingEntry.shown =
      [[some 0xAD, none, none], [none]] := by
  decide +kernel

end Mos6502
