/-!
Base64 text of byte strings with the standard alphabet, padding, and no other form accepted: the padding has
to be complete and the bits it leaves unused have to be zero.
-/

namespace Mos6502.Base64

/-- The digit for six bits. -/
def digit (value : Nat) : Char :=
  if value < 26 then Char.ofNat (65 + value)
  else if value < 52 then Char.ofNat (71 + value)
  else if value < 62 then Char.ofNat (value - 4)
  else if value = 62 then '+'
  else '/'

/-- The six bits of a digit. -/
def value? (c : Char) : Option Nat :=
  if 'A' ≤ c ∧ c ≤ 'Z' then some (c.toNat - 65)
  else if 'a' ≤ c ∧ c ≤ 'z' then some (c.toNat - 71)
  else if '0' ≤ c ∧ c ≤ '9' then some (c.toNat + 4)
  else if c = '+' then some 62
  else if c = '/' then some 63
  else none

/-- The text of bytes behind `text`, whose characters stand last first. -/
def encodeFrom (text : List Char) : List UInt8 → List Char
  | [] => text.reverse
  | [a] =>
    ('=' :: '=' :: digit (a.toNat % 4 * 16) :: digit (a.toNat / 4) :: text).reverse
  | [a, b] =>
    ('=' :: digit (b.toNat % 16 * 4) :: digit (a.toNat % 4 * 16 + b.toNat / 16)
      :: digit (a.toNat / 4) :: text).reverse
  | a :: b :: c :: rest =>
    encodeFrom
      (digit (c.toNat % 64) :: digit (b.toNat % 16 * 4 + c.toNat / 64)
        :: digit (a.toNat % 4 * 16 + b.toNat / 16) :: digit (a.toNat / 4) :: text)
      rest

/-- The text of a byte string. -/
def encode (bytes : List UInt8) : String :=
  String.ofList (encodeFrom [] bytes)

/-- The byte that two digits and one byte of four digits share. -/
def firstByte (p q : Nat) : UInt8 := UInt8.ofNat (p * 4 + q / 16)

/-- The second byte of four digits. -/
def secondByte (q r : Nat) : UInt8 := UInt8.ofNat (q % 16 * 16 + r / 4)

/-- The third byte of four digits. -/
def thirdByte (r s : Nat) : UInt8 := UInt8.ofNat (r % 4 * 64 + s)

/-- The bytes of the last four characters, which may be padding, behind `bytes`, which stand last first. -/
def decodeLast? (bytes : List UInt8) (a b c d : Char) : Option (List UInt8) := do
  let p ← value? a
  let q ← value? b
  if c = '=' then
    if d = '=' ∧ q % 16 = 0 then return (firstByte p q :: bytes).reverse else none
  else
    let r ← value? c
    if d = '=' then
      if r % 4 = 0 then return (secondByte q r :: firstByte p q :: bytes).reverse else none
    else
      let s ← value? d
      return (thirdByte r s :: secondByte q r :: firstByte p q :: bytes).reverse

/-- The bytes of a text behind `bytes`, which stand last first. -/
def decodeFrom? (bytes : List UInt8) : List Char → Option (List UInt8)
  | [] => some bytes.reverse
  | [a, b, c, d] => decodeLast? bytes a b c d
  | a :: b :: c :: d :: rest => do
    let p ← value? a
    let q ← value? b
    let r ← value? c
    let s ← value? d
    decodeFrom? (thirdByte r s :: secondByte q r :: firstByte p q :: bytes) rest
  | _ => none

/-- The bytes that a text stands for. -/
def decode? (text : String) : Option (List UInt8) :=
  decodeFrom? [] text.toList

end Mos6502.Base64
