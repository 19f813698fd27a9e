/-!
Bounds of fixed-width numbers; bytes and 16-bit words: composition, halves, pages, and the two address
computations of the instruction set, the page-crossing test of indexing and the target of a relative branch.
-/

namespace Mos6502

/-- Numbers of 16 bits lie below this bound. -/
def bound16 : Nat := 0x10000

/-- Numbers of 32 bits lie below this bound. -/
def bound32 : Nat := 0x100000000

/-- Numbers of 64 bits lie below this bound. -/
def bound64 : Nat := 0x10000000000000000

/-- The word with the given low and high byte. -/
def wordOf (low high : UInt8) : UInt16 :=
  UInt16.ofNat (low.toNat + 256 * high.toNat)

/-- The low byte of a word. -/
def lowByte (word : UInt16) : UInt8 :=
  UInt8.ofNat (word.toNat % 256)

/-- The high byte of a word, which is also the number of its page. -/
def highByte (word : UInt16) : UInt8 :=
  UInt8.ofNat (word.toNat / 256)

/-- A byte as an address in page zero. -/
def zeroPage (byte : UInt8) : UInt16 :=
  byte.toUInt16

/-- Whether adding `index` to the low byte of `base` carries into the next page. -/
def crossesPage (base : UInt16) (index : UInt8) : Bool :=
  255 < base.toNat % 256 + index.toNat

/-- The target of a branch with displacement `offset`, a two's complement byte counted from `next`, the
address of the instruction after the branch. -/
def branchTarget (next : UInt16) (offset : UInt8) : UInt16 :=
  if offset < 0x80 then next + offset.toUInt16 else next + offset.toUInt16 - 256

end Mos6502
