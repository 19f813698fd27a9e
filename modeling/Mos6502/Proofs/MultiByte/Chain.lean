import Mathlib.Data.Nat.Digits.Lemmas
import Mos6502.Alu

/-!
# Numbers of several bytes

Numbers that do not fit into one byte are added and subtracted from their lowest byte upwards, with the carry of each
byte passed on to the next. If one byte obeys an equation between digits, with the carry as a digit of the next place,
then the whole chain obeys the same equation between numbers, whatever the base is and however many bytes there are.
-/

namespace Mos6502.Alu

/-- An operation on the bytes of two numbers, the lowest first, each with the carry of the one before. -/
def chain (operation : UInt8 → UInt8 → Bool → Result) : List UInt8 → List UInt8 → Bool → List Result
  | a :: as, m :: ms, carry =>
    operation a m carry :: chain operation as ms (operation a m carry).carry
  | _, _, _ => []

/-- The bytes that results leave. -/
def values (results : List Result) : List UInt8 :=
  results.map (·.value)

/-- The carry behind results: that of the last of them, or the one before them if there are none. -/
def carryOut (carry : Bool) (results : List Result) : Bool :=
  results.foldl (fun _ result => result.carry) carry

/-- The number that bytes stand for, the lowest first, as digits of a base. -/
def numeral (base : Nat) (digit : UInt8 → Nat) (bytes : List UInt8) : Nat :=
  Nat.ofDigits base (bytes.map digit)

section

variable (base : Nat) (digit : UInt8 → Nat)

@[simp]
theorem numeral_nil : numeral base digit [] = 0 := rfl

@[simp]
theorem numeral_cons (byte : UInt8) (rest : List UInt8) :
    numeral base digit (byte :: rest) = digit byte + base * numeral base digit rest := by
  simp [numeral, Nat.ofDigits_cons]

variable {base digit}

theorem numeral_lt {bytes : List UInt8} (wide : 1 < base) (small : ∀ byte ∈ bytes, digit byte < base) :
    numeral base digit bytes < base ^ bytes.length := by
  have bounded := Nat.ofDigits_lt_base_pow_length wide (l := bytes.map digit) (by simpa using small)
  rwa [List.length_map] at bounded

/-- Digits and their complements add up to the largest number of that length. -/
theorem numeral_complement {bytes : List UInt8} (small : ∀ byte ∈ bytes, digit byte < base) :
    numeral base (fun byte => base - 1 - digit byte) bytes + numeral base digit bytes + 1 =
      base ^ bytes.length := by
  induction bytes with
  | nil => rfl
  | cons byte rest inductionHypothesis =>
    obtain ⟨here, others⟩ := List.forall_mem_cons.mp small
    have place : base - 1 - digit byte + digit byte + 1 = base := by omega
    rw [numeral_cons, numeral_cons, List.length_cons, Nat.pow_succ', ← inductionHypothesis others]
    generalize numeral base (fun byte => base - 1 - digit byte) rest = left
    generalize numeral base digit rest = right
    calc
      base - 1 - digit byte + base * left + (digit byte + base * right) + 1
          = base - 1 - digit byte + digit byte + 1 + base * (left + right) := by ring
      _ = base * (left + right + 1) := by
        rw [place]
        ring

end

section

variable {operation : UInt8 → UInt8 → Bool → Result}

@[simp]
theorem chain_cons (a m : UInt8) (as ms : List UInt8) (carry : Bool) :
    chain operation (a :: as) (m :: ms) carry =
      operation a m carry :: chain operation as ms (operation a m carry).carry := rfl

theorem length_chain {as ms : List UInt8} (same : as.length = ms.length) (carry : Bool) :
    (chain operation as ms carry).length = as.length := by
  induction as generalizing ms carry with
  | nil => rfl
  | cons a as inductionHypothesis =>
    cases ms with
    | nil => cases same
    | cons m ms =>
      rw [chain_cons, List.length_cons, List.length_cons, inductionHypothesis (Nat.succ.inj same)]

/-- The bytes of the second number can be changed beforehand. -/
theorem chain_map (change : UInt8 → UInt8) (as ms : List UInt8) (carry : Bool) :
    chain (fun a m carry => operation a (change m) carry) as ms carry =
      chain operation as (ms.map change) carry := by
  induction as generalizing ms carry with
  | nil => rfl
  | cons a as inductionHypothesis =>
    cases ms with
    | nil => rfl
    | cons m ms => rw [chain_cons, List.map_cons, chain_cons, inductionHypothesis]

/-- What each byte gives, all bytes of a chain have. -/
theorem forall_mem_values_chain {P : UInt8 → Prop}
    (each : ∀ a m carry, P a → P m → P (operation a m carry).value) {as ms : List UInt8}
    (left : ∀ byte ∈ as, P byte) (right : ∀ byte ∈ ms, P byte) (carry : Bool) :
    ∀ byte ∈ values (chain operation as ms carry), P byte := by
  induction as generalizing ms carry with
  | nil => simp [chain, values]
  | cons a as inductionHypothesis =>
    cases ms with
    | nil => simp [chain, values]
    | cons m ms =>
      obtain ⟨here, others⟩ := List.forall_mem_cons.mp left
      obtain ⟨hereToo, othersToo⟩ := List.forall_mem_cons.mp right
      exact List.forall_mem_cons.mpr
        ⟨each a m carry here hereToo, inductionHypothesis others othersToo _⟩

/-- The equation of one byte, with the carry as a digit of the next place, holds of whole numbers. -/
theorem numeral_chain {P : UInt8 → Prop} {base : Nat} {digit addend : UInt8 → Nat}
    (each : ∀ a m carry, P a → P m →
      digit (operation a m carry).value + base * (operation a m carry).carry.toNat =
        digit a + addend m + carry.toNat)
    {as ms : List UInt8} (same : as.length = ms.length) (left : ∀ byte ∈ as, P byte)
    (right : ∀ byte ∈ ms, P byte) (carry : Bool) :
    numeral base digit (values (chain operation as ms carry)) +
        base ^ as.length * (carryOut carry (chain operation as ms carry)).toNat =
      numeral base digit as + numeral base addend ms + carry.toNat := by
  induction as generalizing ms carry with
  | nil =>
    cases ms with
    | nil => simp [chain, values, carryOut]
    | cons m ms => cases same
  | cons a as inductionHypothesis =>
    cases ms with
    | nil => cases same
    | cons m ms =>
      obtain ⟨here, others⟩ := List.forall_mem_cons.mp left
      obtain ⟨hereToo, othersToo⟩ := List.forall_mem_cons.mp right
      have lowest := each a m carry here hereToo
      have rest := inductionHypothesis (Nat.succ.inj same) others othersToo (operation a m carry).carry
      change numeral base digit ((operation a m carry).value :: values (chain operation as ms _)) +
        base ^ (as.length + 1) * (carryOut (operation a m carry).carry (chain operation as ms _)).toNat = _
      simp only [numeral_cons]
      generalize numeral base digit (values (chain operation as ms _)) = result at rest ⊢
      generalize (carryOut (operation a m carry).carry (chain operation as ms _)).toNat = last at rest ⊢
      calc
        digit (operation a m carry).value + base * result + base ^ (as.length + 1) * last
            = digit (operation a m carry).value + base * (result + base ^ as.length * last) := by ring
        _ = digit (operation a m carry).value + base * (operation a m carry).carry.toNat +
              base * (numeral base digit as + numeral base addend ms) := by
          rw [rest]
          ring
        _ = digit a + base * numeral base digit as + (addend m + base * numeral base addend ms) +
              carry.toNat := by
          rw [lowest]
          ring

end

end Mos6502.Alu
