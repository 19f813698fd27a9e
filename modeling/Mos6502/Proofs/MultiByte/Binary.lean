import Mathlib.Tactic.LinearCombination
import Mos6502.Proofs.MultiByte.Chain

/-!
# Binary numbers of several bytes

A binary addition of bytes goes over to whole numbers: with the carry as one more place they add up. The overflow flag
of the highest byte speaks for the whole number too, though it comes from the signs of single bytes: of all that the
lower bytes add, only their carry reaches the highest place, and what stays below it is too small to decide whether a
sum of two's complement numbers fits. Subtraction is addition of the complement, and the complement of a two's
complement number is one less than its negative.
-/

namespace Mos6502.Alu

/-- The number that bytes stand for, the lowest first. -/
def binaryValue (bytes : List UInt8) : Nat :=
  numeral 256 UInt8.toNat bytes

@[simp]
theorem binaryValue_nil : binaryValue [] = 0 := rfl

@[simp]
theorem binaryValue_cons (byte : UInt8) (rest : List UInt8) :
    binaryValue (byte :: rest) = byte.toNat + 256 * binaryValue rest :=
  numeral_cons 256 UInt8.toNat byte rest

theorem binaryValue_lt (bytes : List UInt8) : binaryValue bytes < 256 ^ bytes.length :=
  numeral_lt (by decide) fun byte _ => byte.toNat_lt

/-- The number that bytes stand for in two's complement. -/
def signedValue (bytes : List UInt8) : Int :=
  (binaryValue bytes : Int).bmod (256 ^ bytes.length)

/-- Numbers that some bytes can hold in two's complement. -/
def FitsSigned (bytes : Nat) (value : Int) : Prop :=
  -(2 ^ (8 * bytes - 1)) ≤ value ∧ value < 2 ^ (8 * bytes - 1)

instance (bytes : Nat) : DecidablePred (FitsSigned bytes) :=
  fun value => inferInstanceAs (Decidable (-(2 ^ (8 * bytes - 1)) ≤ value ∧ value < 2 ^ (8 * bytes - 1)))

theorem pow_eq_two_mul {bytes : Nat} (positive : 0 < bytes) : 256 ^ bytes = 2 * 2 ^ (8 * bytes - 1) := by
  have exponent : 8 * bytes = 8 * bytes - 1 + 1 := by omega
  calc
    256 ^ bytes = 2 ^ (8 * bytes) := by rw [Nat.pow_mul]
    _ = 2 * 2 ^ (8 * bytes - 1) := by rw [exponent, Nat.pow_succ']; rfl

/-- The two's complement value of bytes is the number that they can hold and that differs from their value by whole
turns. -/
theorem signedValue_eq_iff {bytes : List UInt8} (some_byte : bytes ≠ []) {value : Int} :
    signedValue bytes = value ↔
      FitsSigned bytes.length value ∧ ((256 ^ bytes.length : Nat) : Int) ∣ value - binaryValue bytes := by
  have half := pow_eq_two_mul (List.length_pos_iff.mpr some_byte)
  have positive : 0 < 256 ^ bytes.length := Nat.pow_pos (by decide)
  have lower : ((256 ^ bytes.length : Nat) : Int) / 2 = 2 ^ (8 * bytes.length - 1) := by
    rw [half]
    push_cast
    omega
  have upper : (((256 ^ bytes.length : Nat) : Int) + 1) / 2 = 2 ^ (8 * bytes.length - 1) := by
    rw [half]
    push_cast
    omega
  rw [signedValue, Int.bmod_eq_iff positive, lower, upper, FitsSigned, and_assoc]

theorem signedValue_spec {bytes : List UInt8} (some_byte : bytes ≠ []) :
    FitsSigned bytes.length (signedValue bytes) ∧
      ((256 ^ bytes.length : Nat) : Int) ∣ signedValue bytes - binaryValue bytes :=
  (signedValue_eq_iff some_byte).mp rfl

/-- The lowest byte makes no difference to whether a number fits. -/
theorem fitsSigned_succ {bytes : Nat} (positive : 0 < bytes) (byte : UInt8) (value : Int) :
    FitsSigned (bytes + 1) (byte.toNat + 256 * value) ↔ FitsSigned bytes value := by
  have exponent : 8 * (bytes + 1) - 1 = 8 * bytes - 1 + 8 := by omega
  have below := byte.toNat_lt
  unfold FitsSigned
  rw [exponent, Int.pow_add]
  generalize (2 : Int) ^ (8 * bytes - 1) = half
  omega

theorem signedValue_singleton (byte : UInt8) :
    signedValue [byte] = byte.toNat - 256 * (isNegative byte).toNat := by
  have below := byte.toNat_lt
  rw [signedValue_eq_iff (List.cons_ne_nil _ _), FitsSigned, isNegative, Bool.toNat, Bool.cond_decide]
  simp only [List.length_singleton, binaryValue_cons, binaryValue_nil]
  split <;> omega

/-- Only the highest byte has a sign. -/
theorem signedValue_cons {rest : List UInt8} (some_byte : rest ≠ []) (byte : UInt8) :
    signedValue (byte :: rest) = byte.toNat + 256 * signedValue rest := by
  obtain ⟨fits, turns⟩ := signedValue_spec some_byte
  rw [signedValue_eq_iff (List.cons_ne_nil _ _), List.length_cons,
    fitsSigned_succ (List.length_pos_iff.mpr some_byte)]
  refine ⟨fits, ?_⟩
  have scaled := Int.mul_dvd_mul_left 256 turns
  have difference : (byte.toNat + 256 * signedValue rest - binaryValue (byte :: rest) : Int) =
      256 * (signedValue rest - binaryValue rest) := by
    rw [binaryValue_cons]
    push_cast
    ring
  rwa [difference, Nat.pow_succ', Nat.cast_mul]

/-- The bytes of a number with all bits inverted. -/
def complement (bytes : List UInt8) : List UInt8 :=
  bytes.map (~~~·)

theorem length_complement (bytes : List UInt8) : (complement bytes).length = bytes.length :=
  List.length_map _

theorem complement_ne_nil {bytes : List UInt8} (some_byte : bytes ≠ []) : complement bytes ≠ [] :=
  mt List.map_eq_nil_iff.mp some_byte

theorem binaryValue_complement (bytes : List UInt8) :
    binaryValue (complement bytes) + binaryValue bytes + 1 = 256 ^ bytes.length := by
  have inverted : (complement bytes).map UInt8.toNat = bytes.map fun byte => 256 - 1 - byte.toNat := by
    simp [complement]
  have added : numeral 256 (fun byte => 256 - 1 - byte.toNat) bytes + binaryValue bytes + 1 =
      256 ^ bytes.length := numeral_complement fun byte _ => byte.toNat_lt
  rwa [numeral, ← inverted] at added

theorem signedValue_complement {bytes : List UInt8} (some_byte : bytes ≠ []) :
    signedValue (complement bytes) = -1 - signedValue bytes := by
  obtain ⟨⟨lower, upper⟩, turns⟩ := signedValue_spec some_byte
  have inverted := binaryValue_complement bytes
  rw [signedValue_eq_iff (complement_ne_nil some_byte), length_complement]
  constructor
  · unfold FitsSigned
    omega
  · have difference : (-1 - signedValue bytes - binaryValue (complement bytes) : Int) =
        -(signedValue bytes - binaryValue bytes) - (256 ^ bytes.length : Nat) := by
      rw [← inverted]
      push_cast
      ring
    rw [difference]
    exact Int.dvd_sub (Int.dvd_neg.mpr turns) (Int.dvd_refl _)

/-- The carry of an addition is a digit of the next place. -/
theorem toNat_addBinary (a m : UInt8) (carry : Bool) :
    (addBinary a m carry).value.toNat + 256 * (addBinary a m carry).carry.toNat =
      a.toNat + m.toNat + carry.toNat := by
  have belowA := a.toNat_lt
  have belowM := m.toNat_lt
  have small := carry.toNat_le
  simp only [addBinary, UInt8.toNat_ofNat']
  generalize carry.toNat = carried at *
  rw [Bool.toNat, Bool.cond_decide]
  split <;> omega

/-- Operands of one sign give a value of the other just when their sum does not fit. -/
theorem overflow_addBinary (a m : UInt8) (carry : Bool) :
    (addBinary a m carry).overflow = true ↔
      ¬FitsSigned 1 (signedValue [a] + signedValue [m] + carry.toNat) := by
  have belowA := a.toNat_lt
  have belowM := m.toNat_lt
  have small := carry.toNat_le
  rw [signedValue_singleton, signedValue_singleton]
  simp only [addBinary, FitsSigned, isNegative, UInt8.toNat_ofNat', Bool.and_eq_true, beq_iff_eq, bne_iff_ne,
    ne_eq, decide_eq_decide]
  generalize carry.toNat = carried at *
  simp only [Bool.toNat, Bool.cond_decide]
  split <;> split <;> omega

/-- To subtract is to add the complement. -/
theorem chain_subtractBinary (as ms : List UInt8) (carry : Bool) :
    chain subtractBinary as ms carry = chain addBinary as (complement ms) carry :=
  chain_map (~~~·) as ms carry

/-- The overflow of the highest byte is that of the whole sum. -/
theorem overflow_chain {as ms : List UInt8} (same : as.length = ms.length) (some_byte : as ≠ [])
    (carry : Bool) :
    ∃ last ∈ (chain addBinary as ms carry).getLast?,
      (last.overflow = true ↔
        ¬FitsSigned as.length (signedValue as + signedValue ms + carry.toNat)) := by
  induction as generalizing ms carry with
  | nil => exact absurd rfl some_byte
  | cons a as inductionHypothesis =>
    cases ms with
    | nil => cases same
    | cons m ms =>
      have lengths : as.length = ms.length := Nat.succ.inj same
      by_cases highest : as = []
      · have highestToo : ms = [] := List.eq_nil_of_length_eq_zero (by rw [← lengths, highest]; rfl)
        subst highest highestToo
        exact ⟨addBinary a m carry, rfl, overflow_addBinary a m carry⟩
      · have highestToo : ms ≠ [] := by
          rw [← List.length_pos_iff, ← lengths]
          exact List.length_pos_iff.mpr highest
        obtain ⟨last, isLast, overflow⟩ :=
          inductionHypothesis lengths highest (addBinary a m carry).carry
        refine ⟨last, ?_, overflow.trans (not_congr ?_)⟩
        · rw [chain_cons, List.getLast?_cons, isLast]
          rfl
        · -- What the lowest byte does not carry up is one byte of the sum.
          have lowest := toNat_addBinary a m carry
          have sum : signedValue (a :: as) + signedValue (m :: ms) + carry.toNat =
              (addBinary a m carry).value.toNat +
                256 * (signedValue as + signedValue ms + (addBinary a m carry).carry.toNat) := by
            rw [signedValue_cons highest, signedValue_cons highestToo]
            omega
          rw [sum, List.length_cons, fitsSigned_succ (List.length_pos_iff.mpr highest)]

/-- Results that hold the sum of two numbers and a carry, with the carry out of them as one more place. The last of them
tells whether the sum of the two's complement numbers is too large or too small for their length. -/
structure HoldsBinarySum (a m : List UInt8) (carry : Bool) (results : List Result) : Prop where
  length : (values results).length = a.length
  value : binaryValue (values results) + 256 ^ a.length * (carryOut carry results).toNat =
    binaryValue a + binaryValue m + carry.toNat
  overflow : ∃ last ∈ results.getLast?,
    (last.overflow = true ↔ ¬FitsSigned a.length (signedValue a + signedValue m + carry.toNat))

/-- Results that hold the difference of two numbers less a borrow, where both borrows are inverted carries. The last of
them tells whether the difference of the two's complement numbers is too large or too small for their length. -/
structure HoldsBinaryDifference (a m : List UInt8) (carry : Bool) (results : List Result) : Prop where
  length : (values results).length = a.length
  value : (binaryValue (values results) - 256 ^ a.length * (1 - (carryOut carry results).toNat) : Int) =
    binaryValue a - binaryValue m - (1 - carry.toNat)
  overflow : ∃ last ∈ results.getLast?,
    (last.overflow = true ↔ ¬FitsSigned a.length (signedValue a - signedValue m - (1 - carry.toNat)))

section

variable {a m : List UInt8} (same : a.length = m.length) (some_byte : a ≠ [])

include same some_byte

theorem holdsBinarySum_chain (carry : Bool) : HoldsBinarySum a m carry (chain addBinary a m carry) where
  length := by rw [values, List.length_map, length_chain same]
  value := numeral_chain (P := fun _ => True) (fun a m carry _ _ => toNat_addBinary a m carry) same
    (fun _ _ => trivial) (fun _ _ => trivial) carry
  overflow := overflow_chain same some_byte carry

theorem holdsBinaryDifference_chain (carry : Bool) :
    HoldsBinaryDifference a m carry (chain subtractBinary a m carry) := by
  have sameToo : a.length = (complement m).length := by rw [length_complement, same]
  have some_other : m ≠ [] := by
    rw [← List.length_pos_iff, ← same]
    exact List.length_pos_iff.mpr some_byte
  have added := holdsBinarySum_chain sameToo some_byte carry
  rw [← chain_subtractBinary] at added
  refine ⟨added.length, ?_, ?_⟩
  · have value : (binaryValue (values (chain subtractBinary a m carry)) +
        256 ^ a.length * (carryOut carry (chain subtractBinary a m carry)).toNat : Int) =
          binaryValue a + binaryValue (complement m) + carry.toNat := mod_cast added.value
    have inverted : (binaryValue (complement m) + binaryValue m + 1 : Int) = 256 ^ a.length := by
      rw [same]
      exact mod_cast binaryValue_complement m
    linear_combination value + inverted
  · obtain ⟨last, isLast, overflow⟩ := added.overflow
    have difference : signedValue a + signedValue (complement m) + carry.toNat =
        signedValue a - signedValue m - (1 - carry.toNat) := by
      rw [signedValue_complement some_other]
      ring
    rw [difference] at overflow
    exact ⟨last, isLast, overflow⟩

/-- Chains of binary additions and subtractions are exact, with the carry as one more place, and the overflow of their
last byte tells whether the sum or difference of the two's complement numbers fits into as many bytes. -/
theorem binary_chains_exact (carry : Bool) :
    HoldsBinarySum a m carry (chain addBinary a m carry) ∧
      HoldsBinaryDifference a m carry (chain subtractBinary a m carry) :=
  ⟨holdsBinarySum_chain same some_byte carry, holdsBinaryDifference_chain same some_byte carry⟩

end

/-- 7FFF and FFFF: the sum has a carry and fits, for FFFF stands for -1, and taking away -1 gives 8000, which does
not fit. -/
theorem largestAndMinusOne_exact :
    ([0xFF, 0x7F] : List UInt8).length = ([0xFF, 0xFF] : List UInt8).length ∧
      ([0xFF, 0x7F] : List UInt8) ≠ [] ∧
      HoldsBinarySum [0xFF, 0x7F] [0xFF, 0xFF] false (chain addBinary [0xFF, 0x7F] [0xFF, 0xFF] false) ∧
      HoldsBinaryDifference [0xFF, 0x7F] [0xFF, 0xFF] true
        (chain subtractBinary [0xFF, 0x7F] [0xFF, 0xFF] true) ∧
      FitsSigned 2 (signedValue [0xFF, 0x7F] + signedValue [0xFF, 0xFF]) ∧
      ¬FitsSigned 2 (signedValue [0xFF, 0x7F] - signedValue [0xFF, 0xFF]) := by
  have same : ([0xFF, 0x7F] : List UInt8).length = ([0xFF, 0xFF] : List UInt8).length := rfl
  have some_byte : ([0xFF, 0x7F] : List UInt8) ≠ [] := List.cons_ne_nil _ _
  exact ⟨same, some_byte, (binary_chains_exact same some_byte false).1,
    (binary_chains_exact same some_byte true).2, by decide, by decide⟩

end Mos6502.Alu
