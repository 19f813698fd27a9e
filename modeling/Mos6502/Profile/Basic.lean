import Mos6502.Word

/-!
The execution profile: what each instruction did, added up per address and in total. Counters are 64-bit.
-/

namespace Mos6502

/-- What one instruction did. -/
structure Sample where
  cycles : UInt64 := 0
  /-- Whether a branch was taken; `none` for other instructions. -/
  branch : Option Bool := none
  branchCross : Bool := false
  indexCross : Bool := false
  overflow : Bool := false
  /-- Whether registers, status, memory or the flow of control changed. -/
  effect : Bool := false
deriving DecidableEq, Repr

/-- The counters of one address. -/
structure CellProfile where
  cycles : UInt64 := 0
  branches : UInt64 := 0
  extra : UInt64 := 0
  noEffect : UInt64 := 0
deriving DecidableEq, Repr

/-- The counters over all addresses. -/
structure ProfileTotals where
  instructions : UInt64 := 0
  cycles : UInt64 := 0
  branchesTaken : UInt64 := 0
  branchesNotTaken : UInt64 := 0
  branchPageCross : UInt64 := 0
  indexPageCross : UInt64 := 0
  arithOverflow : UInt64 := 0
  noEffect : UInt64 := 0
deriving DecidableEq, Repr

/-- One as a count of the cases in which a condition holds. -/
def countOf (condition : Bool) : UInt64 :=
  if condition then 1 else 0

/-- Adds a sample to the counters of its address. -/
def CellProfile.add (cell : CellProfile) (sample : Sample) : CellProfile :=
  { cycles := cell.cycles + sample.cycles
    branches := cell.branches + countOf (sample.branch == some true)
    extra := cell.extra + (countOf sample.branchCross + countOf sample.indexCross)
    noEffect := cell.noEffect + countOf (!sample.effect) }

def ProfileTotals.add (totals : ProfileTotals) (sample : Sample) : ProfileTotals :=
  { instructions := totals.instructions + 1
    cycles := totals.cycles + sample.cycles
    branchesTaken := totals.branchesTaken + countOf (sample.branch == some true)
    branchesNotTaken := totals.branchesNotTaken + countOf (sample.branch == some false)
    branchPageCross := totals.branchPageCross + countOf sample.branchCross
    indexPageCross := totals.indexPageCross + countOf sample.indexCross
    arithOverflow := totals.arithOverflow + countOf sample.overflow
    noEffect := totals.noEffect + countOf (!sample.effect) }

/-- Counters for the addresses from zero upwards, and the totals. -/
structure Profile where
  cells : Array CellProfile
  totals : ProfileTotals := {}
deriving DecidableEq, Repr

namespace Profile

def new (size : Nat) : Profile :=
  { cells := Array.replicate size {} }

def size (profile : Profile) : Nat :=
  profile.cells.size

/-- The counters of an address, zero outside the profile. -/
def cell (profile : Profile) (addr : UInt16) : CellProfile :=
  profile.cells.getD addr.toNat {}

/-- Attributes a sample to the instruction at an address. -/
def record (profile : Profile) (addr : UInt16) (sample : Sample) : Profile :=
  { cells := profile.cells.modify addr.toNat (·.add sample)
    totals := profile.totals.add sample }

end Profile

end Mos6502
