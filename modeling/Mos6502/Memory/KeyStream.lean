import Mos6502.Word

/-!
The byte stream behind random fills: a 64-bit seed is expanded by a permuted congruential generator to
the key of a twelve-round ChaCha key stream with zero nonce and a 64-bit block counter from zero.
-/

namespace Mos6502.KeyStream

/-- One step of the seed expansion: the next state and the word it gives out. -/
def expandSeed (state : UInt64) : UInt64 × UInt32 :=
  let next := state * 6364136223846793005 + 11634580027462260723
  let shifted := (((next >>> 18) ^^^ next) >>> 27).toUInt32
  let turn := (next >>> 59).toUInt32
  (next, (shifted >>> turn) ||| (shifted <<< (32 - turn)))

/-- The first `count` words of the expansion of a seed. -/
def seedWords : Nat → UInt64 → List UInt32
  | 0, _ => []
  | count + 1, state =>
    let (next, word) := expandSeed state
    word :: seedWords count next

/-- The sixteen words that the stream generator works on. -/
abbrev Block := Vector UInt32 16

/-- Rotation of a word to the left. -/
def rotate (word amount : UInt32) : UInt32 :=
  (word <<< amount) ||| (word >>> (32 - amount))

/-- Mixes four words of a block. -/
def quarterRound (block : Block) (a b c d : Fin 16) : Block :=
  let block := block.set a (block[a] + block[b])
  let block := block.set d (rotate (block[d] ^^^ block[a]) 16)
  let block := block.set c (block[c] + block[d])
  let block := block.set b (rotate (block[b] ^^^ block[c]) 12)
  let block := block.set a (block[a] + block[b])
  let block := block.set d (rotate (block[d] ^^^ block[a]) 8)
  let block := block.set c (block[c] + block[d])
  block.set b (rotate (block[b] ^^^ block[c]) 7)

/-- One round over the columns and one over the diagonals. -/
def doubleRound (block : Block) : Block :=
  let block := quarterRound block 0 4 8 12
  let block := quarterRound block 1 5 9 13
  let block := quarterRound block 2 6 10 14
  let block := quarterRound block 3 7 11 15
  let block := quarterRound block 0 5 10 15
  let block := quarterRound block 1 6 11 12
  let block := quarterRound block 2 7 8 13
  quarterRound block 3 4 9 14

/-- The block that the rounds start from: constants, key, block counter, and a zero nonce. -/
def initialBlock (key : List UInt32) (counter : Nat) : Block :=
  let words := [0x61707865, 0x3320646E, 0x79622D32, 0x6B206574] ++ key
    ++ [UInt32.ofNat (counter % bound32), UInt32.ofNat (counter / bound32)]
  Vector.ofFn fun i => words.getD i.val 0

/-- The little-endian bytes of a word. -/
def wordBytes (word : UInt32) : List UInt8 :=
  [word.toUInt8, (word >>> 8).toUInt8, (word >>> 16).toUInt8, (word >>> 24).toUInt8]

/-- The sixty-four bytes of one block of the stream. -/
def blockBytes (key : List UInt32) (counter : Nat) : List UInt8 :=
  let start := initialBlock key counter
  let mixed := (List.range 6).foldl (fun block _ => doubleRound block) start
  (mixed.zipWith (· + ·) start).toList.flatMap wordBytes

/-- The first `count` bytes of the stream for a seed. -/
def bytes (seed : UInt64) (count : Nat) : List UInt8 :=
  let key := seedWords 8 seed
  ((List.range ((count + 63) / 64)).flatMap (blockBytes key)).take count

end Mos6502.KeyStream
