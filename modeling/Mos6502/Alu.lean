/-!
Byte arithmetic of the processor: binary and decimal addition and subtraction, comparison, shifts and
rotates, as functions from operands and carry to a value and the flags it sets.
-/

namespace Mos6502.Alu

/-- Value and flags of an addition, subtraction or comparison. -/
structure Result where
  value : UInt8
  carry : Bool
  zero : Bool
  negative : Bool
  overflow : Bool
deriving DecidableEq, Repr

/-- Whether the sign bit of a byte is set. -/
def isNegative (byte : UInt8) : Bool :=
  128 ≤ byte.toNat

/-- Binary addition. Overflow is set if operands of one sign give a value of the other. -/
def addBinary (a m : UInt8) (carry : Bool) : Result :=
  let sum := a.toNat + m.toNat + carry.toNat
  let value := UInt8.ofNat sum
  { value
    carry := 255 < sum
    zero := value == 0
    negative := isNegative value
    overflow := isNegative a == isNegative m && isNegative value != isNegative a }

/-- Decimal addition of packed digits. Zero comes from the binary sum, negative and overflow from the
high digit before its last correction, carry from the corrected result. -/
def addDecimal (a m : UInt8) (carry : Bool) : Result :=
  let low := a.toNat % 16 + m.toNat % 16 + carry.toNat
  let high := a.toNat / 16 * 16 + m.toNat / 16 * 16
  let (low, high) := if 9 < low then (low + 6, high + 16) else (low, high)
  let negative := high.testBit 7
  let overflow := isNegative a == isNegative m && negative != isNegative a
  let high := if 0x90 < high then high + 0x60 else high
  { value := UInt8.ofNat (high % 256 / 16 * 16 + low % 16)
    carry := 255 < high
    zero := (addBinary a m carry).zero
    negative
    overflow }

/-- Binary subtraction with the carry as inverted borrow: addition of the complement. -/
def subtractBinary (a m : UInt8) (carry : Bool) : Result :=
  addBinary a (~~~m) carry

/-- Decimal subtraction of packed digits. The flags are those of the binary subtraction; the value is
corrected digit by digit. -/
def subtractDecimal (a m : UInt8) (carry : Bool) : Result :=
  let low : Int := a.toNat % 16 - m.toNat % 16 - (!carry).toNat
  let high : Int := a.toNat / 16 - m.toNat / 16
  let (low, high) := if low < 0 then (low - 6, high - 1) else (low, high)
  let high := if high < 0 then high - 6 else high
  { subtractBinary a m carry with
    value := UInt8.ofNat (high % 16 * 16 + low % 16).toNat }

/-- Comparison: the flags of a subtraction without borrow; overflow is not affected. -/
def compare (register m : UInt8) : Result :=
  let value := register - m
  { value
    carry := m ≤ register
    zero := value == 0
    negative := isNegative value
    overflow := false }

/-- Shifts left; the second component is the bit shifted out. -/
def shiftLeft (byte : UInt8) : UInt8 × Bool :=
  (UInt8.ofNat (byte.toNat * 2), isNegative byte)

/-- Shifts right; the second component is the bit shifted out. -/
def shiftRight (byte : UInt8) : UInt8 × Bool :=
  (UInt8.ofNat (byte.toNat / 2), byte.toNat % 2 == 1)

/-- Rotates left through the carry. -/
def rotateLeft (byte : UInt8) (carry : Bool) : UInt8 × Bool :=
  (UInt8.ofNat (byte.toNat * 2 + carry.toNat), isNegative byte)

/-- Rotates right through the carry. -/
def rotateRight (byte : UInt8) (carry : Bool) : UInt8 × Bool :=
  (UInt8.ofNat (byte.toNat / 2 + carry.toNat * 128), byte.toNat % 2 == 1)

end Mos6502.Alu
