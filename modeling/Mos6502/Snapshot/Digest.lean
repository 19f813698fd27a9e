import Mos6502.Text.Numeral

/-!
The SHA-256 digest of a byte string, written in lower-case hexadecimal.
-/

namespace Mos6502.Digest

/-- The eight words that hash blocks are mixed into. -/
structure Chain where
  a : UInt32 := 0x6A09E667
  b : UInt32 := 0xBB67AE85
  c : UInt32 := 0x3C6EF372
  d : UInt32 := 0xA54FF53A
  e : UInt32 := 0x510E527F
  f : UInt32 := 0x9B05688C
  g : UInt32 := 0x1F83D9AB
  h : UInt32 := 0x5BE0CD19
deriving DecidableEq, Repr

/-- The constants of the sixty-four rounds. -/
def roundConstants : List UInt32 :=
  [0x428A2F98, 0x71374491, 0xB5C0FBCF, 0xE9B5DBA5, 0x3956C25B, 0x59F111F1, 0x923F82A4, 0xAB1C5ED5,
    0xD807AA98, 0x12835B01, 0x243185BE, 0x550C7DC3, 0x72BE5D74, 0x80DEB1FE, 0x9BDC06A7, 0xC19BF174,
    0xE49B69C1, 0xEFBE4786, 0x0FC19DC6, 0x240CA1CC, 0x2DE92C6F, 0x4A7484AA, 0x5CB0A9DC, 0x76F988DA,
    0x983E5152, 0xA831C66D, 0xB00327C8, 0xBF597FC7, 0xC6E00BF3, 0xD5A79147, 0x06CA6351, 0x14292967,
    0x27B70A85, 0x2E1B2138, 0x4D2C6DFC, 0x53380D13, 0x650A7354, 0x766A0ABB, 0x81C2C92E, 0x92722C85,
    0xA2BFE8A1, 0xA81A664B, 0xC24B8B70, 0xC76C51A3, 0xD192E819, 0xD6990624, 0xF40E3585, 0x106AA070,
    0x19A4C116, 0x1E376C08, 0x2748774C, 0x34B0BCB5, 0x391C0CB3, 0x4ED8AA4A, 0x5B9CCA4F, 0x682E6FF3,
    0x748F82EE, 0x78A5636F, 0x84C87814, 0x8CC70208, 0x90BEFFFA, 0xA4506CEB, 0xBEF9A3F7, 0xC67178F2]

def rotate (word amount : UInt32) : UInt32 :=
  (word >>> amount) ||| (word <<< (32 - amount))

/-- Continues a message schedule by `count` words. -/
def schedule : Nat → Array UInt32 → Array UInt32
  | 0, words => words
  | count + 1, words =>
    let at_ := fun back => words.getD (words.size - back) 0
    let x := at_ 15
    let y := at_ 2
    let s0 := rotate x 7 ^^^ rotate x 18 ^^^ (x >>> 3)
    let s1 := rotate y 17 ^^^ rotate y 19 ^^^ (y >>> 10)
    schedule count (words.push (at_ 16 + s0 + at_ 7 + s1))

def round (chain : Chain) (constant word : UInt32) : Chain :=
  let { a, b, c, d, e, f, g, h } := chain
  let s1 := rotate e 6 ^^^ rotate e 11 ^^^ rotate e 25
  let choice := (e &&& f) ^^^ (~~~e &&& g)
  let t1 := h + s1 + choice + constant + word
  let s0 := rotate a 2 ^^^ rotate a 13 ^^^ rotate a 22
  let majority := (a &&& b) ^^^ (a &&& c) ^^^ (b &&& c)
  { a := t1 + (s0 + majority), b := a, c := b, d := c, e := d + t1, f := e, g := f, h := g }

/-- Adds chains word by word. -/
def add (left right : Chain) : Chain :=
  { a := left.a + right.a, b := left.b + right.b, c := left.c + right.c, d := left.d + right.d
    e := left.e + right.e, f := left.f + right.f, g := left.g + right.g, h := left.h + right.h }

/-- The big-endian words of a byte string. -/
def wordsOf : List UInt8 → List UInt32
  | p :: q :: r :: s :: rest =>
    ((p.toUInt32 <<< 24) ||| (q.toUInt32 <<< 16) ||| (r.toUInt32 <<< 8) ||| s.toUInt32)
      :: wordsOf rest
  | _ => []

/-- Mixes one block of sixty-four bytes into the chain. -/
def mixBlock (chain : Chain) (block : List UInt8) : Chain :=
  let words := (schedule 48 (wordsOf block).toArray).toList
  add chain ((roundConstants.zip words).foldl (fun chain (k, w) => round chain k w) chain)

def mixBlocks : Nat → List UInt8 → Chain → Chain
  | 0, _, chain => chain
  | count + 1, bytes, chain => mixBlocks count (bytes.drop 64) (mixBlock chain (bytes.take 64))

/-- The bytes of a number, highest first. -/
def bigEndian : Nat → Nat → List UInt8
  | 0, _ => []
  | width + 1, value => UInt8.ofNat (value / Nat.pow 256 width) :: bigEndian width value

/-- A message with its padding: a one bit, zeros, and the length in bits. -/
def pad (bytes : List UInt8) : List UInt8 :=
  let zeros := (119 - bytes.length % 64) % 64
  bytes ++ 0x80 :: List.replicate zeros 0 ++ bigEndian 8 (bytes.length * 8)

def Chain.text (chain : Chain) : String :=
  String.join <|
    [chain.a, chain.b, chain.c, chain.d, chain.e, chain.f, chain.g, chain.h].flatMap fun word =>
      (bigEndian 4 word.toNat).map Text.hexByte

def sha256 (bytes : List UInt8) : String :=
  let padded := pad bytes
  (mixBlocks (padded.length / 64) padded {}).text

end Mos6502.Digest
