import Mos6502.Proofs.MultiByte.Binary

/-!
# Shifting numbers of several bytes

A number of several bytes is shifted left from its lowest byte upwards and right from its highest byte downwards, where
the first byte is shifted and each other byte takes in, by a rotation, the bit that the one before has put out. A
rotation of one byte obeys an equation with the carry as one more place, on the left side of a shift to the left and on
the right side of a shift to the right; so whole numbers obey it, and as it determines byte and carry, a rotation in one
direction undoes a rotation in the other.
-/

namespace Mos6502.Alu

/-- Goes through bytes from the lowest upwards, each with the carry of the one before. -/
def upwards (operation : UInt8 → Bool → UInt8 × Bool) : List UInt8 → Bool → List UInt8 × Bool
  | [], carry => ([], carry)
  | byte :: rest, carry =>
    let (value, carry) := operation byte carry
    let (values, carry) := upwards operation rest carry
    (value :: values, carry)

/-- Goes through bytes from the highest downwards, each with the carry of the one before. -/
def downwards (operation : UInt8 → Bool → UInt8 × Bool) : List UInt8 → Bool → List UInt8 × Bool
  | [], carry => ([], carry)
  | byte :: rest, carry =>
    let (values, carry) := downwards operation rest carry
    let (value, carry) := operation byte carry
    (value :: values, carry)

/-- Shifts the lowest byte left and rotates the others after it. -/
def shiftUpwards : List UInt8 → List UInt8 × Bool
  | [] => ([], false)
  | lowest :: rest =>
    let (value, carry) := shiftLeft lowest
    let (values, carry) := upwards rotateLeft rest carry
    (value :: values, carry)

/-- Shifts the highest byte right and rotates the others after it. -/
def shiftDownwards : List UInt8 → List UInt8 × Bool
  | [] => ([], false)
  | [highest] =>
    let (value, carry) := shiftRight highest
    ([value], carry)
  | byte :: next :: rest =>
    let (values, carry) := shiftDownwards (next :: rest)
    let (value, carry) := rotateRight byte carry
    (value :: values, carry)

/-- A rotation to the left puts the carry below the byte and takes it from above. -/
theorem toNat_rotateLeft (byte : UInt8) (carry : Bool) :
    (rotateLeft byte carry).1.toNat + 256 * (rotateLeft byte carry).2.toNat =
      2 * byte.toNat + carry.toNat := by
  have below := byte.toNat_lt
  have small := carry.toNat_le
  simp only [rotateLeft, isNegative, UInt8.toNat_ofNat']
  generalize carry.toNat = carried at *
  rw [Bool.toNat, Bool.cond_decide]
  split <;> omega

/-- A rotation to the right puts the carry above the byte and takes it from below. -/
theorem toNat_rotateRight (byte : UInt8) (carry : Bool) :
    2 * (rotateRight byte carry).1.toNat + (rotateRight byte carry).2.toNat =
      byte.toNat + 256 * carry.toNat := by
  have below := byte.toNat_lt
  have small := carry.toNat_le
  simp only [rotateRight, UInt8.toNat_ofNat']
  generalize carry.toNat = carried at *
  simp only [Bool.toNat, Bool.cond_eq_ite, beq_iff_eq]
  split <;> omega

theorem carry_eq_of_toNat {carry carryToo : Bool} (same : carry.toNat = carryToo.toNat) :
    carry = carryToo := by
  revert carry carryToo
  decide

/-- A byte with a carry below it is told by the number that they make up. -/
theorem eq_of_carry_below {byte other : UInt8} {carry carryToo : Bool}
    (same : 2 * byte.toNat + carry.toNat = 2 * other.toNat + carryToo.toNat) :
    (byte, carry) = (other, carryToo) := by
  have small := carry.toNat_le
  have smallToo := carryToo.toNat_le
  have bytes : byte = other := UInt8.toNat.inj (by omega)
  have carries : carry = carryToo := carry_eq_of_toNat (by omega)
  rw [bytes, carries]

/-- A byte with a carry above it is told by the number that they make up. -/
theorem eq_of_carry_above {byte other : UInt8} {carry carryToo : Bool}
    (same : byte.toNat + 256 * carry.toNat = other.toNat + 256 * carryToo.toNat) :
    (byte, carry) = (other, carryToo) := by
  have below := byte.toNat_lt
  have belowToo := other.toNat_lt
  have bytes : byte = other := UInt8.toNat.inj (by omega)
  have carries : carry = carryToo := carry_eq_of_toNat (by omega)
  rw [bytes, carries]

theorem rotateRight_rotateLeft (byte : UInt8) (carry : Bool) :
    rotateRight (rotateLeft byte carry).1 (rotateLeft byte carry).2 = (byte, carry) :=
  eq_of_carry_below ((toNat_rotateRight _ _).trans (toNat_rotateLeft byte carry))

theorem rotateLeft_rotateRight (byte : UInt8) (carry : Bool) :
    rotateLeft (rotateRight byte carry).1 (rotateRight byte carry).2 = (byte, carry) :=
  eq_of_carry_above ((toNat_rotateLeft _ _).trans (toNat_rotateRight byte carry))

section

variable (operation back : UInt8 → Bool → UInt8 × Bool)

@[simp]
theorem upwards_nil (carry : Bool) : upwards operation [] carry = ([], carry) := rfl

@[simp]
theorem upwards_cons (byte : UInt8) (rest : List UInt8) (carry : Bool) :
    upwards operation (byte :: rest) carry =
      ((operation byte carry).1 :: (upwards operation rest (operation byte carry).2).1,
        (upwards operation rest (operation byte carry).2).2) := rfl

@[simp]
theorem downwards_nil (carry : Bool) : downwards operation [] carry = ([], carry) := rfl

@[simp]
theorem downwards_cons (byte : UInt8) (rest : List UInt8) (carry : Bool) :
    downwards operation (byte :: rest) carry =
      ((operation byte (downwards operation rest carry).2).1 :: (downwards operation rest carry).1,
        (operation byte (downwards operation rest carry).2).2) := rfl

theorem length_upwards (bytes : List UInt8) (carry : Bool) :
    (upwards operation bytes carry).1.length = bytes.length := by
  induction bytes generalizing carry with
  | nil => rfl
  | cons byte rest inductionHypothesis => simp [inductionHypothesis]

theorem length_downwards (bytes : List UInt8) (carry : Bool) :
    (downwards operation bytes carry).1.length = bytes.length := by
  induction bytes with
  | nil => rfl
  | cons byte rest inductionHypothesis => simp [inductionHypothesis]

variable {operation back}

/-- Going back downwards undoes byte by byte what going upwards has done. -/
theorem downwards_upwards
    (undone : ∀ byte carry, back (operation byte carry).1 (operation byte carry).2 = (byte, carry))
    (bytes : List UInt8) (carry : Bool) :
    downwards back (upwards operation bytes carry).1 (upwards operation bytes carry).2 =
      (bytes, carry) := by
  induction bytes generalizing carry with
  | nil => rfl
  | cons byte rest inductionHypothesis =>
    simp only [upwards_cons, downwards_cons, inductionHypothesis, undone]

theorem upwards_downwards
    (undone : ∀ byte carry, back (operation byte carry).1 (operation byte carry).2 = (byte, carry))
    (bytes : List UInt8) (carry : Bool) :
    upwards back (downwards operation bytes carry).1 (downwards operation bytes carry).2 =
      (bytes, carry) := by
  induction bytes with
  | nil => rfl
  | cons byte rest inductionHypothesis =>
    simp only [upwards_cons, downwards_cons, undone, inductionHypothesis]

end

/-- The carry into a rotation upwards is a bit below the number, and the carry out of it a bit above. -/
theorem binaryValue_upwards (bytes : List UInt8) (carry : Bool) :
    binaryValue (upwards rotateLeft bytes carry).1 +
        256 ^ bytes.length * (upwards rotateLeft bytes carry).2.toNat =
      2 * binaryValue bytes + carry.toNat := by
  induction bytes generalizing carry with
  | nil => simp
  | cons byte rest inductionHypothesis =>
    have lowest := toNat_rotateLeft byte carry
    have others := inductionHypothesis (rotateLeft byte carry).2
    simp only [upwards_cons, binaryValue_cons, List.length_cons, Nat.pow_succ']
    linear_combination lowest + 256 * others

/-- The carry into a rotation downwards is a bit above the number, and the carry out of it a bit below. -/
theorem binaryValue_downwards (bytes : List UInt8) (carry : Bool) :
    2 * binaryValue (downwards rotateRight bytes carry).1 +
        (downwards rotateRight bytes carry).2.toNat =
      binaryValue bytes + 256 ^ bytes.length * carry.toNat := by
  induction bytes with
  | nil => simp
  | cons byte rest inductionHypothesis =>
    have lowest := toNat_rotateRight byte (downwards rotateRight rest carry).2
    simp only [downwards_cons, binaryValue_cons, List.length_cons, Nat.pow_succ']
    linear_combination lowest + 256 * inductionHypothesis

/-- A shift is a rotation of a bit that is not set. -/
theorem shiftUpwards_eq (bytes : List UInt8) : shiftUpwards bytes = upwards rotateLeft bytes false := by
  cases bytes <;> rfl

theorem shiftDownwards_eq (bytes : List UInt8) :
    shiftDownwards bytes = downwards rotateRight bytes false := by
  induction bytes with
  | nil => rfl
  | cons byte rest inductionHypothesis =>
    cases rest with
    | nil => simp [shiftDownwards, shiftRight, rotateRight]
    | cons next rest =>
      rw [shiftDownwards, inductionHypothesis]
      rfl

/-- Bytes that hold the double of a number around the end of its length, with its highest bit put out. -/
structure HoldsDouble (bytes : List UInt8) (shifted : List UInt8 × Bool) : Prop where
  length : shifted.1.length = bytes.length
  value : binaryValue shifted.1 = 2 * binaryValue bytes % 256 ^ bytes.length
  putOut : shifted.2 = (binaryValue bytes).testBit (8 * bytes.length - 1)

/-- Bytes that hold half of a number, rounded down, with its lowest bit put out. -/
structure HoldsHalf (bytes : List UInt8) (shifted : List UInt8 × Bool) : Prop where
  length : shifted.1.length = bytes.length
  value : binaryValue shifted.1 = binaryValue bytes / 2
  putOut : shifted.2 = (binaryValue bytes).testBit 0

theorem holdsDouble_shiftUpwards (bytes : List UInt8) : HoldsDouble bytes (shiftUpwards bytes) := by
  have doubled := binaryValue_upwards bytes false
  have length := length_upwards rotateLeft bytes false
  have below := binaryValue_lt (upwards rotateLeft bytes false).1
  rw [length] at below
  rw [Bool.toNat_false, Nat.add_zero] at doubled
  rw [shiftUpwards_eq]
  refine ⟨length, ?_, ?_⟩
  · rw [← doubled, Nat.add_mul_mod_self_left, Nat.mod_eq_of_lt below]
  · by_cases empty : bytes = []
    · subst empty
      rfl
    · have half := pow_eq_two_mul (List.length_pos_iff.mpr empty)
      have bounded := binaryValue_lt bytes
      rw [half] at doubled below bounded
      cases out : (upwards rotateLeft bytes false).2 with
      | true =>
        rw [out, Bool.toNat_true, Nat.mul_one] at doubled
        refine (Nat.testBit_of_two_pow_le_and_two_pow_add_one_gt ?_ ?_).symm
        · omega
        · rw [Nat.pow_succ']
          exact bounded
      | false =>
        rw [out, Bool.toNat_false, Nat.mul_zero] at doubled
        exact (Nat.testBit_lt_two_pow (by omega)).symm

theorem holdsHalf_shiftDownwards (bytes : List UInt8) : HoldsHalf bytes (shiftDownwards bytes) := by
  have halved := binaryValue_downwards bytes false
  rw [Bool.toNat_false, Nat.mul_zero, Nat.add_zero] at halved
  have small := (downwards rotateRight bytes false).2.toNat_le
  rw [shiftDownwards_eq]
  refine ⟨length_downwards rotateRight bytes false, by omega, ?_⟩
  rw [Nat.testBit_zero, ← halved]
  cases (downwards rotateRight bytes false).2 <;> simp

/-- Shifting upwards doubles a number around the end of its length and puts out its highest bit, shifting downwards
halves it and puts out its lowest. Rotations through a carry undo each other, whichever comes first. -/
theorem shifts_and_rotations_exact (bytes : List UInt8) :
    HoldsDouble bytes (shiftUpwards bytes) ∧
      HoldsHalf bytes (shiftDownwards bytes) ∧
      ∀ carry,
        downwards rotateRight (upwards rotateLeft bytes carry).1 (upwards rotateLeft bytes carry).2 =
            (bytes, carry) ∧
          upwards rotateLeft (downwards rotateRight bytes carry).1 (downwards rotateRight bytes carry).2 =
            (bytes, carry) :=
  ⟨holdsDouble_shiftUpwards bytes, holdsHalf_shiftDownwards bytes, fun carry =>
    ⟨downwards_upwards rotateRight_rotateLeft bytes carry,
      upwards_downwards rotateLeft_rotateRight bytes carry⟩⟩

/-- 80C0, shifted upwards: the bit between the bytes is carried, the highest goes out. -/
example : shiftUpwards [0xC0, 0x80] = ([0x80, 0x01], true) := by decide

end Mos6502.Alu
