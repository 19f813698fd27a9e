/-!
Unsigned numerals: hexadecimal writing with a fixed least width, and the reading of a bounded numeral
in a given radix. Reading allows one leading plus sign and no other sign.
-/

namespace Mos6502.Text

/-- The upper-case digit for a value below sixteen. -/
def hexDigit (value : Nat) : Char :=
  if value < 10 then Char.ofNat (48 + value) else Char.ofNat (55 + value)

/-- Upper-case hexadecimal digits, padded with zeros on the left up to `width`. -/
def hex (width value : Nat) : String :=
  let digits := (Nat.toDigits 16 value).map Char.toUpper
  String.ofList (List.replicate (width - digits.length) '0' ++ digits)

/-- Lower-case two-digit hexadecimal form of a byte. -/
def hexByte (byte : UInt8) : String :=
  String.ofList
    [(hexDigit (byte.toNat / 16)).toLower, (hexDigit (byte.toNat % 16)).toLower]

/-- Decimal digits of a natural number. -/
def decimal (value : Nat) : String :=
  String.ofList (Nat.toDigits 10 value)

/-- The value of a digit, letters counting from ten in either case. -/
def digitValue? (digit : Char) : Option Nat :=
  if '0' ≤ digit ∧ digit ≤ '9' then some (digit.toNat - 48)
  else if 'a' ≤ digit ∧ digit ≤ 'z' then some (digit.toNat - 87)
  else if 'A' ≤ digit ∧ digit ≤ 'Z' then some (digit.toNat - 55)
  else none

/-- The value of a digit sequence continued from `value`; `none` at the first character that is no
digit of `radix`. -/
def readDigits? (radix : Nat) : Nat → List Char → Option Nat
  | value, [] => some value
  | value, digit :: rest =>
    match digitValue? digit with
    | some d => if d < radix then readDigits? radix (value * radix + d) rest else none
    | none => none

/-- Reads an unsigned numeral below `bound`: an optional plus sign and at least one digit. -/
def readNumeral? (radix bound : Nat) (text : List Char) : Option Nat :=
  let digits := match text with
    | '+' :: rest => rest
    | _ => text
  if digits.isEmpty then none
  else (readDigits? radix 0 digits).filter (· < bound)

end Mos6502.Text
