import Mathlib.Data.List.Basic
import Mos6502.Snapshot.Base64

/-!
# Base64 text

Three bytes are four digits and four digits three bytes, so that decoding undoes encoding.
-/

namespace Mos6502.Base64

theorem value?_digit {value : Nat} (small : value < 64) : value? (digit value) = some value := by
  have all : ∀ value < 64, value? (digit value) = some value := by
    decide +kernel
  exact all value small

theorem digit_ne_padding {value : Nat} (small : value < 64) : digit value ≠ '=' := by
  have all : ∀ value < 64, digit value ≠ '=' := by
    decide +kernel
  exact all value small

theorem encodeFrom_append (text before : List Char) (bytes : List UInt8) :
    encodeFrom (text ++ before) bytes = before.reverse ++ encodeFrom text bytes := by
  fun_induction encodeFrom text bytes with
  | case1 text => simp [encodeFrom]
  | case2 text a => simp [encodeFrom]
  | case3 text a b => simp [encodeFrom]
  | case4 text a b c rest inductionHypothesis =>
    rw [encodeFrom]
    exact inductionHypothesis

/-- Three bytes give four digits. -/
theorem encodeFrom_cons (a b c : UInt8) (rest : List UInt8) :
    encodeFrom [] (a :: b :: c :: rest) =
      digit (a.toNat / 4) :: digit (a.toNat % 4 * 16 + b.toNat / 16)
        :: digit (b.toNat % 16 * 4 + c.toNat / 64) :: digit (c.toNat % 64)
        :: encodeFrom [] rest :=
  encodeFrom_append [] _ rest

/-- Four digits give three bytes. -/
theorem decodeFrom?_digits (out : List UInt8) {p q r s : Nat} (hp : p < 64) (hq : q < 64)
    (hr : r < 64) (hs : s < 64) (rest : List Char) :
    decodeFrom? out (digit p :: digit q :: digit r :: digit s :: rest) =
      decodeFrom? (thirdByte r s :: secondByte q r :: firstByte p q :: out) rest := by
  cases rest with
  | nil => simp [decodeFrom?, decodeLast?, value?_digit, hp, hq, hr, hs, digit_ne_padding]
  | cons c rest => simp [decodeFrom?, value?_digit, hp, hq, hr, hs]

theorem eq_of_toNat_eq {a : UInt8} {value : Nat} (same : value = a.toNat) :
    UInt8.ofNat value = a := by
  rw [same, UInt8.ofNat_toNat]

theorem decodeFrom?_encodeFrom : ∀ (bytes out : List UInt8),
    decodeFrom? out (encodeFrom [] bytes) = some (out.reverse ++ bytes)
  | [], out => by simp [encodeFrom, decodeFrom?]
  | [a], out => by
    have bound := a.toNat_lt
    have first : firstByte (a.toNat / 4) (a.toNat % 4 * 16) = a := eq_of_toNat_eq (by omega)
    have high : a.toNat / 4 < 64 := by omega
    have low : a.toNat % 4 * 16 < 64 := by omega
    simp [encodeFrom, decodeFrom?, decodeLast?, value?_digit, high, low, first]
  | [a, b], out => by
    have boundA := a.toNat_lt
    have boundB := b.toNat_lt
    have high : a.toNat / 4 < 64 := by omega
    have middle : a.toNat % 4 * 16 + b.toNat / 16 < 64 := by omega
    have low : b.toNat % 16 * 4 < 64 := by omega
    have first : firstByte (a.toNat / 4) (a.toNat % 4 * 16 + b.toNat / 16) = a :=
      eq_of_toNat_eq (by omega)
    have second : secondByte (a.toNat % 4 * 16 + b.toNat / 16) (b.toNat % 16 * 4) = b :=
      eq_of_toNat_eq (by omega)
    simp [encodeFrom, decodeFrom?, decodeLast?, value?_digit, digit_ne_padding, high, middle, low,
      first, second]
  | a :: b :: c :: rest, out => by
    have boundA := a.toNat_lt
    have boundB := b.toNat_lt
    have boundC := c.toNat_lt
    have first : firstByte (a.toNat / 4) (a.toNat % 4 * 16 + b.toNat / 16) = a :=
      eq_of_toNat_eq (by omega)
    have second : secondByte (a.toNat % 4 * 16 + b.toNat / 16)
        (b.toNat % 16 * 4 + c.toNat / 64) = b :=
      eq_of_toNat_eq (by omega)
    have third : thirdByte (b.toNat % 16 * 4 + c.toNat / 64) (c.toNat % 64) = c :=
      eq_of_toNat_eq (by omega)
    rw [encodeFrom_cons, decodeFrom?_digits out (by omega) (by omega) (by omega) (by omega), first,
      second, third, decodeFrom?_encodeFrom rest]
    simp

theorem decode?_encode (bytes : List UInt8) : decode? (encode bytes) = some bytes := by
  rw [decode?, encode, String.toList_ofList]
  exact decodeFrom?_encodeFrom bytes []

end Mos6502.Base64
