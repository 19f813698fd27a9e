import Mos6502.Profile.Basic
import Mos6502.Text.Numeral

/-!
The binary form of a profile: a signature, a version, the number of addresses, four tables of counters and
the totals, all integers little-endian. Bytes behind the totals are ignored on reading.
-/

namespace Mos6502

/-- Why bytes are no profile, or a profile cannot be used. -/
inductive ProfileError where
  | unreadable (cause : String)
  | badSignature
  | badVersion (version : Nat)
  | tooLarge (size : Nat)
  | sizeMismatch (expected actual : Nat)
deriving DecidableEq, Repr

def ProfileError.message : ProfileError → String
  | .unreadable cause => "I/O error: " ++ cause
  | .badSignature => "not a profile file"
  | .badVersion version => "unsupported profile version 0x" ++ Text.hex 4 version
  | .tooLarge size =>
    "profile has " ++ Text.decimal size ++ " cells, more than any address space"
  | .sizeMismatch expected actual =>
    "profile has " ++ Text.decimal actual ++ " cells, memory has " ++ Text.decimal expected

namespace Profile

/-- The signature in front of every profile. -/
def signature : List UInt8 :=
  [0x53, 0x49, 0x4D, 0x3A, 0x50, 0x52, 0x4F, 0x46, 0x0A]

def formatVersion : Nat := 0x0101

/-- The largest number of addresses that a file may claim. -/
def maxSize : Nat := 0x10000

/-- The `width` low bytes of a number, lowest first. -/
def littleEndian : Nat → Nat → List UInt8
  | 0, _ => []
  | width + 1, value => UInt8.ofNat (value % 256) :: littleEndian width (value / 256)

/-- The number that bytes stand for, lowest first. -/
def ofLittleEndian : List UInt8 → Nat
  | [] => 0
  | byte :: rest => byte.toNat + 256 * ofLittleEndian rest

def counterBytes (counter : UInt64) : List UInt8 :=
  littleEndian 8 counter.toNat

/-- The totals in the order of the file. -/
def totalsList (totals : ProfileTotals) : List UInt64 :=
  [totals.instructions, totals.cycles, totals.branchesTaken, totals.branchesNotTaken,
    totals.branchPageCross, totals.indexPageCross, totals.arithOverflow, totals.noEffect]

/-- The counters in the order of the file: the four tables one after the other, then the totals. -/
def counters (profile : Profile) : List UInt64 :=
  let cells := profile.cells.toList
  cells.map (·.cycles) ++ cells.map (·.branches) ++ cells.map (·.extra) ++ cells.map (·.noEffect)
    ++ totalsList profile.totals

/-- The file form of a profile. -/
def encode (profile : Profile) : List UInt8 :=
  signature ++ littleEndian 2 formatVersion ++ littleEndian 4 profile.size
    ++ profile.counters.flatMap counterBytes

/-- Takes exactly `count` bytes off the front. -/
def takeBytes? (count : Nat) (bytes : List UInt8) : Option (List UInt8 × List UInt8) :=
  let front := bytes.take count
  if front.length = count then some (front, bytes.drop count) else none

/-- Takes `count` counters off the front; `taken` holds those taken so far, last first. -/
def takeCounters? : Nat → List UInt64 → List UInt8 → Option (List UInt64 × List UInt8)
  | 0, taken, bytes => some (taken.reverse, bytes)
  | count + 1, taken, bytes =>
    match takeBytes? 8 bytes with
    | some (front, rest) =>
      takeCounters? count (UInt64.ofNat (ofLittleEndian front) :: taken) rest
    | none => none

/-- The totals from a list in the order of the file. -/
def totalsOfList? : List UInt64 → Option ProfileTotals
  | [instructions, cycles, branchesTaken, branchesNotTaken, branchPageCross, indexPageCross,
      arithOverflow, noEffect] =>
    some { instructions, cycles, branchesTaken, branchesNotTaken, branchPageCross, indexPageCross,
           arithOverflow, noEffect }
  | _ => none

/-- Joins four tables into the counters of each address. -/
def joinTables (cycles branches extra noEffect : List UInt64) : List CellProfile :=
  ((cycles.zip branches).zip (extra.zip noEffect)).map fun ((c, b), (e, n)) => ⟨c, b, e, n⟩

/-- Reads tables for `size` addresses and the totals. -/
def decodeTables? (size : Nat) (bytes : List UInt8) : Option Profile := do
  let (cycles, bytes) ← takeCounters? size [] bytes
  let (branches, bytes) ← takeCounters? size [] bytes
  let (extra, bytes) ← takeCounters? size [] bytes
  let (noEffect, bytes) ← takeCounters? size [] bytes
  let (totals, _) ← takeCounters? 8 [] bytes
  let totals ← totalsOfList? totals
  return { cells := (joinTables cycles branches extra noEffect).toArray, totals }

def tooShort : ProfileError :=
  .unreadable "failed to fill whole buffer"

/-- Reads a profile from the front of `bytes`. -/
def decode (bytes : List UInt8) : Except ProfileError Profile :=
  match takeBytes? 9 bytes with
  | none => .error tooShort
  | some (front, bytes) =>
    if front ≠ signature then .error .badSignature
    else
      match takeBytes? 2 bytes with
      | none => .error tooShort
      | some (version, bytes) =>
        if ofLittleEndian version ≠ formatVersion then
          .error (.badVersion (ofLittleEndian version))
        else
          match takeBytes? 4 bytes with
          | none => .error tooShort
          | some (size, bytes) =>
            if maxSize < ofLittleEndian size then .error (.tooLarge (ofLittleEndian size))
            else
              match decodeTables? (ofLittleEndian size) bytes with
              | none => .error tooShort
              | some profile => .ok profile

end Profile

end Mos6502
