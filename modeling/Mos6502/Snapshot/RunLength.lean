import Mos6502.Text.Numeral

/-!
Run-length coding of memory images. A byte other than 0xFF stands for itself, 0xFF 0x00 for one 0xFF, and
0xFF n v for n copies of v. The encoder uses the last form for runs of more than three bytes and for zeros.
-/

namespace Mos6502.RunLength

/-- Continues the maximal runs of at most 255 equal bytes: the open run and the runs before it, last
first. -/
def collectRuns (byte : UInt8) (count : Nat) (runs : List (UInt8 × Nat)) :
    List UInt8 → List (UInt8 × Nat)
  | [] => ((byte, count) :: runs).reverse
  | next :: rest =>
    if next = byte ∧ count < 255 then collectRuns byte (count + 1) runs rest
    else collectRuns next 1 ((byte, count) :: runs) rest

/-- The runs of a byte string. -/
def runsOf : List UInt8 → List (UInt8 × Nat)
  | [] => []
  | byte :: rest => collectRuns byte 1 [] rest

/-- A byte that stands for itself. -/
def literal (byte : UInt8) : List UInt8 :=
  if byte = 0xFF then [0xFF, 0x00] else [byte]

/-- The code of a run. -/
def encodeRun (run : UInt8 × Nat) : List UInt8 :=
  if 3 < run.2 ∨ run.1 = 0 then [0xFF, UInt8.ofNat run.2, run.1]
  else (List.replicate run.2 (literal run.1)).flatten

/-- The code of a byte string. -/
def encode (bytes : List UInt8) : List UInt8 :=
  (runsOf bytes).flatMap encodeRun

/-- Why a code does not stand for an image. -/
inductive Error where
  | truncatedEscape
  | truncatedRun
  | wrongSize (actual expected : Nat)
deriving DecidableEq, Repr

def Error.message : Error → String
  | .truncatedEscape => "truncated RLE data"
  | .truncatedRun => "truncated RLE sequence"
  | .wrongSize actual expected =>
    "decompressed size " ++ Text.decimal actual ++ " != " ++ Text.decimal expected

/-- Decodes the rest of a code after `length` bytes, which stand in `out` last first. Behind an escaped piece
that makes the image longer than `size` decoding ends; literal bytes are taken without looking at the size. -/
def decodeFrom (size length : Nat) (out : List UInt8) : List UInt8 → Except Error (List UInt8)
  | [] => if length = size then .ok out.reverse else .error (.wrongSize length size)
  | byte :: rest =>
    if byte ≠ 0xFF then decodeFrom size (length + 1) (byte :: out) rest
    else
      match rest with
      | [] => .error .truncatedEscape
      | count :: rest =>
        if count = 0 then
          if size < length + 1 then .error (.wrongSize (length + 1) size)
          else decodeFrom size (length + 1) (0xFF :: out) rest
        else
          match rest with
          | [] => .error .truncatedRun
          | value :: rest =>
            if size < length + count.toNat then .error (.wrongSize (length + count.toNat) size)
            else
              decodeFrom size (length + count.toNat) (List.replicate count.toNat value ++ out) rest

/-- Decodes a code to an image of `size` bytes. -/
def decode (size : Nat) (code : List UInt8) : Except Error (List UInt8) :=
  decodeFrom size 0 [] code

end Mos6502.RunLength
