import Mos6502.Proofs.MultiByte.Chain

/-!
# Decimal numbers of several bytes

In decimal mode a byte holds two digits. Addition corrects its value digit by digit, and its carry is that of the
corrected sum. Subtraction corrects its value too, but takes its carry from the binary difference, and that is the right
one: bytes of two digits are in the same order as their decimal values. So both obey an equation between numbers below
100, where subtraction adds the complement, and chains of them are exact for numbers of any length.
-/

namespace Mos6502.Alu

/-- A byte that holds two decimal digits. -/
def IsPacked (byte : UInt8) : Prop :=
  byte.toNat / 16 ≤ 9 ∧ byte.toNat % 16 ≤ 9

instance : DecidablePred IsPacked :=
  fun byte => inferInstanceAs (Decidable (byte.toNat / 16 ≤ 9 ∧ byte.toNat % 16 ≤ 9))

/-- The number that two decimal digits stand for. -/
def packedValue (byte : UInt8) : Nat :=
  10 * (byte.toNat / 16) + byte.toNat % 16

theorem IsPacked.lt {byte : UInt8} (packed : IsPacked byte) : packedValue byte < 100 := by
  obtain ⟨high, low⟩ := packed
  unfold packedValue
  omega

theorem IsPacked.eq_of_packedValue {a m : UInt8} (packedA : IsPacked a) (packedM : IsPacked m)
    (same : packedValue a = packedValue m) : a = m := by
  obtain ⟨highA, lowA⟩ := packedA
  obtain ⟨highM, lowM⟩ := packedM
  unfold packedValue at same
  apply UInt8.toNat.inj
  omega

/-- Two digits make up a packed byte. -/
theorem packed_ofNat {high low : Nat} (small : high < 10) (smallToo : low < 10) :
    IsPacked (UInt8.ofNat (high * 16 + low)) ∧
      packedValue (UInt8.ofNat (high * 16 + low)) = 10 * high + low := by
  have fits : (UInt8.ofNat (high * 16 + low)).toNat = high * 16 + low := by
    apply UInt8.toNat_ofNat_of_lt'
    change high * 16 + low < 256
    omega
  unfold IsPacked packedValue
  rw [fits]
  omega

/-- The sum of the low digits, with the carry. -/
def lowSum (a m : UInt8) (carry : Bool) : Nat :=
  a.toNat % 16 + m.toNat % 16 + carry.toNat

/-- The sum of the high digits, with the carry from the low ones. -/
def highSum (a m : UInt8) (carry : Bool) : Nat :=
  a.toNat / 16 + m.toNat / 16 + lowSum a m carry / 10

/-- The difference of the low digits, less the borrow. -/
def lowDifference (a m : UInt8) (carry : Bool) : Int :=
  a.toNat % 16 - m.toNat % 16 - (!carry).toNat

/-- The difference of the high digits, less the borrow of the low ones. -/
def highDifference (a m : UInt8) (carry : Bool) : Int :=
  a.toNat / 16 - m.toNat / 16 + lowDifference a m carry / 10

section

variable {a m : UInt8} (packedA : IsPacked a) (packedM : IsPacked m) (carry : Bool)

include packedA packedM

/-- The corrections of an addition turn sums of digits into digits and carries. -/
theorem addDecimal_eq :
    (addDecimal a m carry).value =
        UInt8.ofNat (highSum a m carry % 10 * 16 + lowSum a m carry % 10) ∧
      (addDecimal a m carry).carry.toNat = highSum a m carry / 10 := by
  obtain ⟨highA, lowA⟩ := packedA
  obtain ⟨highM, lowM⟩ := packedM
  have carried := carry.toNat_le
  have low : a.toNat % 16 + m.toNat % 16 + carry.toNat = lowSum a m carry := rfl
  have bounded : lowSum a m carry ≤ 19 := by omega
  simp only [addDecimal, highSum, low]
  generalize lowSum a m carry = sum at bounded ⊢
  by_cases excess : 9 < sum
  · have one : sum / 10 = 1 := by omega
    simp only [excess, if_true, one]
    constructor
    · apply congrArg UInt8.ofNat
      split <;> omega
    · rw [Bool.toNat, Bool.cond_decide]
      split <;> split <;> omega
  · have none : sum / 10 = 0 := by omega
    simp only [excess, if_false, none]
    constructor
    · apply congrArg UInt8.ofNat
      split <;> omega
    · rw [Bool.toNat, Bool.cond_decide]
      split <;> split <;> omega

theorem addDecimal_of_packed :
    IsPacked (addDecimal a m carry).value ∧
      packedValue (addDecimal a m carry).value + 100 * (addDecimal a m carry).carry.toNat =
        packedValue a + packedValue m + carry.toNat := by
  obtain ⟨sum, carried⟩ := addDecimal_eq packedA packedM carry
  obtain ⟨packed, value⟩ := packed_ofNat (Nat.mod_lt (highSum a m carry) (Nat.succ_pos 9))
    (Nat.mod_lt (lowSum a m carry) (Nat.succ_pos 9))
  rw [sum, carried]
  refine ⟨packed, ?_⟩
  rw [value]
  have high : highSum a m carry = a.toNat / 16 + m.toNat / 16 + lowSum a m carry / 10 := rfl
  have low : lowSum a m carry = a.toNat % 16 + m.toNat % 16 + carry.toNat := rfl
  unfold packedValue
  omega

/-- The corrections of a subtraction turn differences of digits into digits. -/
theorem value_subtractDecimal :
    (subtractDecimal a m carry).value =
      UInt8.ofNat ((highDifference a m carry % 10).toNat * 16 + (lowDifference a m carry % 10).toNat) := by
  obtain ⟨highA, lowA⟩ := packedA
  obtain ⟨highM, lowM⟩ := packedM
  have borrow := (!carry).toNat_le
  have low : (a.toNat % 16 - m.toNat % 16 - (!carry).toNat : Int) = lowDifference a m carry := rfl
  have bounds : -10 ≤ lowDifference a m carry ∧ lowDifference a m carry ≤ 9 := by omega
  simp only [subtractDecimal, highDifference, low]
  generalize lowDifference a m carry = difference at bounds ⊢
  apply congrArg UInt8.ofNat
  by_cases under : difference < 0
  · have one : difference / 10 = -1 := by omega
    simp only [under, if_true, one]
    split <;> omega
  · have none : difference / 10 = 0 := by omega
    simp only [under, if_false, none]
    split <;> omega

/-- The carry is that of the binary difference, but decimal digits borrow just when their bytes do. -/
theorem carry_subtractDecimal :
    ((subtractDecimal a m carry).carry.toNat : Int) = 1 + highDifference a m carry / 10 := by
  have complement : (~~~m).toNat = 255 - m.toNat := by simp
  have below := m.toNat_lt
  have order : (subtractDecimal a m carry).carry = decide (m.toNat + (!carry).toNat ≤ a.toNat) := by
    change decide (255 < a.toNat + (~~~m).toNat + carry.toNat) = _
    rw [complement, decide_eq_decide]
    cases carry <;> simp only [Bool.not_true, Bool.not_false, Bool.toNat_true, Bool.toNat_false] <;> omega
  obtain ⟨highA, lowA⟩ := packedA
  obtain ⟨highM, lowM⟩ := packedM
  have borrow := (!carry).toNat_le
  rw [order, Bool.toNat, Bool.cond_decide]
  unfold highDifference lowDifference
  split <;> omega

theorem subtractDecimal_of_packed :
    IsPacked (subtractDecimal a m carry).value ∧
      packedValue (subtractDecimal a m carry).value + 100 * (subtractDecimal a m carry).carry.toNat =
        packedValue a + (100 - 1 - packedValue m) + carry.toNat := by
  have carried := carry_subtractDecimal packedA packedM carry
  have small := packedM.lt
  have single (x : Int) : (x % 10).toNat < 10 := by omega
  obtain ⟨packed, value⟩ :=
    packed_ofNat (single (highDifference a m carry)) (single (lowDifference a m carry))
  rw [value_subtractDecimal packedA packedM carry]
  refine ⟨packed, ?_⟩
  rw [value]
  have high : highDifference a m carry = a.toNat / 16 - m.toNat / 16 + lowDifference a m carry / 10 := rfl
  have low : lowDifference a m carry = a.toNat % 16 - m.toNat % 16 - (!carry).toNat := rfl
  have borrow : (!carry).toNat + carry.toNat = 1 := by cases carry <;> rfl
  unfold packedValue at small ⊢
  omega

end

/-- The number that packed bytes stand for, the lowest first. -/
def decimalValue (bytes : List UInt8) : Nat :=
  numeral 100 packedValue bytes

theorem decimalValue_lt {bytes : List UInt8} (packed : ∀ byte ∈ bytes, IsPacked byte) :
    decimalValue bytes < 100 ^ bytes.length :=
  numeral_lt (by decide) fun byte member => (packed byte member).lt

/-- Numbers of one length are told by their values. -/
theorem eq_of_decimalValue {left right : List UInt8} (same : left.length = right.length)
    (packedLeft : ∀ byte ∈ left, IsPacked byte) (packedRight : ∀ byte ∈ right, IsPacked byte)
    (values : decimalValue left = decimalValue right) : left = right := by
  induction left generalizing right with
  | nil => exact (List.eq_nil_of_length_eq_zero same.symm).symm
  | cons a as inductionHypothesis =>
    cases right with
    | nil => cases same
    | cons m ms =>
      obtain ⟨here, others⟩ := List.forall_mem_cons.mp packedLeft
      obtain ⟨hereToo, othersToo⟩ := List.forall_mem_cons.mp packedRight
      simp only [decimalValue, numeral_cons] at values
      have first := here.lt
      have second := hereToo.lt
      have lowest : a = m := here.eq_of_packedValue hereToo (by omega)
      have rest : decimalValue as = decimalValue ms := by
        unfold decimalValue
        omega
      rw [lowest, inductionHypothesis (Nat.succ.inj same) others othersToo rest]

/-- Results that hold the sum of two decimal numbers and a carry, with the carry out of them as one more place. -/
structure HoldsSum (a m : List UInt8) (carry : Bool) (results : List Result) : Prop where
  length : (values results).length = a.length
  packed : ∀ byte ∈ values results, IsPacked byte
  value : decimalValue (values results) + 100 ^ a.length * (carryOut carry results).toNat =
    decimalValue a + decimalValue m + carry.toNat

/-- Results that hold the difference of two decimal numbers and a borrow, around the end of their length. The carry out
of them says that the difference did not go around. -/
structure HoldsDifference (a m : List UInt8) (carry : Bool) (results : List Result) : Prop where
  length : (values results).length = a.length
  packed : ∀ byte ∈ values results, IsPacked byte
  value : (decimalValue (values results) : Int) =
    (decimalValue a - decimalValue m - (!carry).toNat) % (100 ^ a.length : Nat)
  unborrowed : carryOut carry results = true ↔ decimalValue m + (!carry).toNat ≤ decimalValue a

section

variable {a m : List UInt8} (same : a.length = m.length) (packedA : ∀ byte ∈ a, IsPacked byte)
  (packedM : ∀ byte ∈ m, IsPacked byte)

include same packedA packedM

theorem holdsSum_chain (carry : Bool) : HoldsSum a m carry (chain addDecimal a m carry) where
  length := by rw [values, List.length_map, length_chain same]
  packed := forall_mem_values_chain
    (fun _ _ carry packedA packedM => (addDecimal_of_packed packedA packedM carry).1) packedA packedM carry
  value := numeral_chain
    (fun _ _ carry packedA packedM => (addDecimal_of_packed packedA packedM carry).2) same packedA packedM carry

theorem holdsDifference_chain (carry : Bool) :
    HoldsDifference a m carry (chain subtractDecimal a m carry) := by
  let difference := chain subtractDecimal a m carry
  have length : (values difference).length = a.length := by
    rw [values, List.length_map, length_chain same]
  have packed : ∀ byte ∈ values difference, IsPacked byte := forall_mem_values_chain
    (fun _ _ carry packedA packedM => (subtractDecimal_of_packed packedA packedM carry).1) packedA packedM carry
  have whole := numeral_chain
    (fun _ _ carry packedA packedM => (subtractDecimal_of_packed packedA packedM carry).2) same packedA packedM carry
  have complement := numeral_complement fun byte member => (packedM byte member).lt
  have small := decimalValue_lt packed
  have smallA := decimalValue_lt packedA
  change decimalValue (values difference) + 100 ^ a.length * (carryOut carry difference).toNat =
    decimalValue a + _ + carry.toNat at whole
  rw [← same] at complement
  rw [length] at small
  change _ + decimalValue m + 1 = 100 ^ a.length at complement
  have borrow : (!carry).toNat + carry.toNat = 1 := by cases carry <;> rfl
  refine ⟨length, packed, ?_, ?_⟩
  · generalize 100 ^ a.length = size at *
    have turn : (decimalValue a - decimalValue m - (!carry).toNat : Int) =
        decimalValue (values difference) + size * ((carryOut carry difference).toNat - 1) := by
      rw [Int.mul_sub]
      omega
    rw [turn, Int.add_mul_emod_self_left]
    exact (Int.emod_eq_of_lt (Int.natCast_nonneg _) (Int.ofNat_lt.mpr small)).symm
  · generalize 100 ^ a.length = size at *
    change carryOut carry difference = true ↔ _
    cases last : carryOut carry difference with
    | true =>
      rw [last, Bool.toNat_true, Nat.mul_one] at whole
      exact iff_of_true rfl (by omega)
    | false =>
      rw [last, Bool.toNat_false, Nat.mul_zero] at whole
      exact iff_of_false Bool.false_ne_true (by omega)

/-- Chains of decimal additions and subtractions are exact: a sum is the sum of the values with the carry into it, the
carry out of it being one more place; a difference is that of the values around the end of the length, and its carry
says that there was no borrow. So subtracting what was added gives back the first number. -/
theorem decimal_chains_exact :
    (∀ carry, HoldsSum a m carry (chain addDecimal a m carry)) ∧
      (∀ carry, HoldsDifference a m carry (chain subtractDecimal a m carry)) ∧
      values (chain subtractDecimal (values (chain addDecimal a m false)) m true) = a := by
  have added := holdsSum_chain same packedA packedM false
  have sameToo := added.length.trans same
  have taken := holdsDifference_chain sameToo added.packed packedM true
  refine ⟨holdsSum_chain same packedA packedM, holdsDifference_chain same packedA packedM, ?_⟩
  apply eq_of_decimalValue (taken.length.trans added.length) taken.packed packedA
  have small := decimalValue_lt packedA
  have sum := added.value
  have value := taken.value
  rw [added.length] at value
  generalize 100 ^ a.length = size at *
  have turn : (decimalValue (values (chain addDecimal a m false)) - decimalValue m - (!true).toNat : Int) =
      decimalValue a + size * -(carryOut false (chain addDecimal a m false)).toNat := by
    simp only [Bool.not_true, Bool.toNat_false, Int.mul_neg] at sum ⊢
    omega
  rw [turn, Int.add_mul_emod_self_left, Int.emod_eq_of_lt (Int.natCast_nonneg _) (Int.ofNat_lt.mpr small)] at value
  exact Int.ofNat.inj value

end

/-- 0199 and 9901, lowest bytes first: both bytes carry, and 10100 has one place more. -/
theorem fullCarry_exact :
    ([0x99, 0x01] : List UInt8).length = ([0x01, 0x99] : List UInt8).length ∧
      (∀ byte ∈ ([0x99, 0x01] : List UInt8), IsPacked byte) ∧
      (∀ byte ∈ ([0x01, 0x99] : List UInt8), IsPacked byte) ∧
      HoldsSum [0x99, 0x01] [0x01, 0x99] false (chain addDecimal [0x99, 0x01] [0x01, 0x99] false) ∧
      HoldsDifference [0x99, 0x01] [0x01, 0x99] true
        (chain subtractDecimal [0x99, 0x01] [0x01, 0x99] true) ∧
      values (chain addDecimal [0x99, 0x01] [0x01, 0x99] false) = [0x00, 0x01] ∧
      values (chain subtractDecimal [0x00, 0x01] [0x01, 0x99] true) = [0x99, 0x01] := by
  have same : ([0x99, 0x01] : List UInt8).length = ([0x01, 0x99] : List UInt8).length := rfl
  have packedA : ∀ byte ∈ ([0x99, 0x01] : List UInt8), IsPacked byte := by
    simp [IsPacked]
  have packedM : ∀ byte ∈ ([0x01, 0x99] : List UInt8), IsPacked byte := by
    simp [IsPacked]
  have sum : values (chain addDecimal [0x99, 0x01] [0x01, 0x99] false) = [0x00, 0x01] := by decide
  obtain ⟨added, taken, back⟩ := decimal_chains_exact same packedA packedM
  rw [sum] at back
  exact ⟨same, packedA, packedM, added false, taken true, sum, back⟩

end Mos6502.Alu
