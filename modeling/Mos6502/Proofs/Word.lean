import Mos6502.Word

/-!
# Words and their bytes

A word is told by its low and its high byte, and a displacement by the address that a branch with it leads to. A count
of 64 bits grows as a number does until it comes to its end.
-/

namespace Mos6502

@[simp]
theorem toNat_wordOf (low high : UInt8) : (wordOf low high).toNat = low.toNat + 256 * high.toNat := by
  have lowBelow := low.toNat_lt
  have highBelow := high.toNat_lt
  rw [wordOf, UInt16.toNat_ofNat', Nat.mod_eq_of_lt]
  omega

@[simp]
theorem lowByte_wordOf (low high : UInt8) : lowByte (wordOf low high) = low := by
  have below := low.toNat_lt
  apply UInt8.toNat.inj
  rw [lowByte, toNat_wordOf, UInt8.toNat_ofNat']
  omega

@[simp]
theorem highByte_wordOf (low high : UInt8) : highByte (wordOf low high) = high := by
  have lowBelow := low.toNat_lt
  have highBelow := high.toNat_lt
  apply UInt8.toNat.inj
  rw [highByte, toNat_wordOf, UInt8.toNat_ofNat']
  omega

@[simp]
theorem wordOf_bytes (word : UInt16) : wordOf (lowByte word) (highByte word) = word := by
  have below := word.toNat_lt
  apply UInt16.toNat.inj
  rw [toNat_wordOf, lowByte, highByte, UInt8.toNat_ofNat', UInt8.toNat_ofNat']
  omega

theorem zeroPage_lowByte_wordOf (low : UInt8) : zeroPage (lowByte (wordOf low 0)) = wordOf low 0 := by
  apply UInt16.toNat.inj
  simp [zeroPage]

/-- Displacements from 128 on lead backwards. -/
theorem toNat_branchTarget (next : UInt16) (offset : UInt8) :
    (branchTarget next offset).toNat =
      (next.toNat + offset.toNat + if offset.toNat < 128 then 0 else 65280) % 65536 := by
  have below := next.toNat_lt
  have widened : offset.toUInt16.toNat = offset.toNat := UInt8.toNat_toUInt16 offset
  have turn : (256 : UInt16).toNat = 256 := rfl
  unfold branchTarget
  by_cases ahead : offset.toNat < 128
  · rw [if_pos (UInt8.lt_iff_toNat_lt.mpr ahead), if_pos ahead, UInt16.toNat_add, widened]
    rfl
  · rw [if_neg (mt UInt8.lt_iff_toNat_lt.mp ahead), if_neg ahead, UInt16.toNat_sub, UInt16.toNat_add,
      widened, turn]
    omega

/-- A displacement is told by the address that it leads to. -/
theorem branchTarget_injective (next : UInt16) : Function.Injective (branchTarget next) := by
  intro offset other same
  have targets := congrArg UInt16.toNat same
  have below := offset.toNat_lt
  have belowToo := other.toNat_lt
  rw [toNat_branchTarget, toNat_branchTarget] at targets
  apply UInt8.toNat.inj
  split at targets <;> split at targets <;> omega

theorem toNat_add_ofNat {count : UInt64} {amount : Nat} (fits : count.toNat + amount < bound64) :
    (count + UInt64.ofNat amount).toNat = count.toNat + amount := by
  rw [UInt64.toNat_add, UInt64.toNat_ofNat', Nat.add_mod_mod]
  exact Nat.mod_eq_of_lt fits

end Mos6502
