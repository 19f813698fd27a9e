import Mos6502.Profile.Basic
import Mos6502.Label.Table
import Mos6502.Json.Document
import Mos6502.Timestamp

/-!
The report on a profile: its totals and the addresses that cost most, dearest first and lower addresses
first among equals. A report has a JSON form.
-/

namespace Mos6502

/-- One address of a report. -/
structure HotSpot where
  addr : UInt16
  label : Option String
  counters : CellProfile
deriving DecidableEq, Repr

/-- Totals and dearest addresses. -/
structure ProfileReport where
  totals : ProfileTotals
  hotSpots : List HotSpot
deriving DecidableEq, Repr

namespace Profile

/-- Whether an address with its counters comes before another in a report. -/
def ranksBefore (left right : Nat × CellProfile) : Bool :=
  right.2.cycles < left.2.cycles || (left.2.cycles == right.2.cycles && left.1 ≤ right.1)

/-- The addresses on which cycles were spent, in the order of a report. -/
def ranking (profile : Profile) : List (Nat × CellProfile) :=
  let cells := (List.range profile.size).zip profile.cells.toList
  (cells.filter fun cell => 0 < cell.2.cycles).mergeSort ranksBefore

/-- The report with at most `top` addresses, named by `labels`. -/
def report (profile : Profile) (labels : Labels) (top : Nat) : ProfileReport :=
  { totals := profile.totals
    hotSpots := (profile.ranking.take top).map fun (index, counters) =>
      { addr := UInt16.ofNat index, label := labels.find? (UInt16.ofNat index), counters } }

end Profile

def counterDocument (counter : UInt64) : Json.Document :=
  .natural counter.toNat

def ProfileTotals.document (totals : ProfileTotals) : Json.Document :=
  .object
    [("instructions", counterDocument totals.instructions),
      ("cycles", counterDocument totals.cycles),
      ("branches_taken", counterDocument totals.branchesTaken),
      ("branches_not_taken", counterDocument totals.branchesNotTaken),
      ("branch_page_cross", counterDocument totals.branchPageCross),
      ("index_page_cross", counterDocument totals.indexPageCross),
      ("arith_overflow", counterDocument totals.arithOverflow),
      ("no_effect", counterDocument totals.noEffect)]

def HotSpot.document (spot : HotSpot) : Json.Document :=
  .object
    [("addr", .natural spot.addr.toNat),
      ("label", match spot.label with
        | some name => .text name
        | none => .null),
      ("cycles", counterDocument spot.counters.cycles),
      ("branches_taken", counterDocument spot.counters.branches),
      ("extra_cycles", counterDocument spot.counters.extra),
      ("no_effect", counterDocument spot.counters.noEffect)]

def ProfileReport.members (report : ProfileReport) : List (String × Json.Document) :=
  [("totals", report.totals.document),
    ("hot_spots", .array (report.hotSpots.map (·.document)))]

def ProfileReport.document (report : ProfileReport) (time : Timestamp) : Json.Document :=
  .object (("generated_at", .text time.text) :: report.members)

end Mos6502
