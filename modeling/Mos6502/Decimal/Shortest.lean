import Mos6502.Text.Numeral

/-!
Decimal text of a counter that is kept as a 64-bit binary floating-point number: the number nearest to the
counter, a half going to the even neighbour, written with the fewest digits that read back as that number.
-/

namespace Mos6502.Decimal

/-- Precision of the floating-point format in bits. -/
def precision : Nat := 53

/-- The exponent of the binary unit in which a natural number of this size is kept. -/
def unitExponent (value : Nat) : Nat :=
  value.log2 + 1 - precision

/-- The nearest multiple of `unit`, as a multiplier; a half goes to the even one. -/
def roundToUnit (value unit : Nat) : Nat :=
  let quotient := value / unit
  let rest := value % unit
  if unit < 2 * rest ∨ (2 * rest = unit ∧ quotient % 2 = 1) then quotient + 1 else quotient

/-- The natural number that the floating-point format keeps for `value`. -/
def nearest (value : Nat) : Nat :=
  let unit := Nat.pow 2 (unitExponent value)
  roundToUnit value unit * unit

/-- The multiple of `10 ^ places` closest to `value` among those that are kept as `nearest value`, if there
is one; `value` itself is to be such a kept number. -/
def closestWithZeros? (value places : Nat) : Option Nat :=
  let step := Nat.pow 10 places
  let below := value / step * step
  let above := below + step
  let keeps := fun candidate => nearest candidate == value
  match keeps below, keeps above with
  | true, true => some (if value - below ≤ above - value then below else above)
  | true, false => some below
  | false, true => some above
  | false, false => none

/-- The number with the fewest digits that is kept as the kept number `value`, trying `places` zeros at the
end, then fewer. -/
def shortestFrom (value : Nat) : Nat → Nat
  | 0 => value
  | places + 1 => (closestWithZeros? value (places + 1)).getD (shortestFrom value places)

/-- The text of a counter. -/
def counterText (value : Nat) : String :=
  let kept := nearest value
  Text.decimal (shortestFrom kept 19)

end Mos6502.Decimal
