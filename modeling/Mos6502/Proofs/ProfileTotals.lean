import Mathlib.Algebra.GroupWithZero.Nat
import Mos6502.Proofs.ProfileSum

/-!
# Totals and tables

Every sample is added to the totals, and to the counters of its address if the profile has that address. So the totals
are the sums of the tables, with what the samples of other addresses contribute on top; and as a profile is read back
from its file as it was written, this outlasts saving and loading.
-/

namespace Mos6502.Profile

/-- The tables of a profile, each with a counter for every address. -/
inductive Table where
  | cycles
  | branches
  | extra
  | noEffect
deriving DecidableEq, Repr

namespace Table

/-- The entry of a table at an address. -/
def ofCell : Table → CellProfile → Nat
  | .cycles, cell => cell.cycles.toNat
  | .branches, cell => cell.branches.toNat
  | .extra, cell => cell.extra.toNat
  | .noEffect, cell => cell.noEffect.toNat

/-- What the totals have for a table. Crossed pages are told apart there by what has crossed them. -/
def ofTotals : Table → ProfileTotals → Nat
  | .cycles, totals => totals.cycles.toNat
  | .branches, totals => totals.branchesTaken.toNat
  | .extra, totals => totals.branchPageCross.toNat + totals.indexPageCross.toNat
  | .noEffect, totals => totals.noEffect.toNat

/-- What a sample contributes to a table. -/
def ofSample : Table → Sample → Nat
  | .cycles, sample => sample.cycles.toNat
  | .branches, sample => (sample.branch == some true).toNat
  | .extra, sample => sample.branchCross.toNat + sample.indexCross.toNat
  | .noEffect, sample => (!sample.effect).toNat

/-- The sum over all addresses of a profile. -/
def sum (table : Table) (profile : Profile) : Nat :=
  (profile.cells.toList.map table.ofCell).sum

/-- What the samples contribute whose addresses are not below `size`. -/
def outside (table : Table) (size : Nat) (samples : List (UInt16 × Sample)) : Nat :=
  ((samples.filter fun entry => size ≤ entry.1.toNat).map fun entry => table.ofSample entry.2).sum

end Table

theorem toNat_countOf (condition : Bool) : (countOf condition).toNat = condition.toNat := by
  cases condition <;> rfl

theorem toNat_add_of_lt {counter added : UInt64} (fits : counter.toNat + added.toNat < 2 ^ 64) :
    (counter + added).toNat = counter.toNat + added.toNat :=
  (UInt64.toNat_add counter added).trans (Nat.mod_eq_of_lt fits)

theorem toNat_add_countOf {counter : UInt64} {condition : Bool}
    (fits : counter.toNat + condition.toNat < 2 ^ 64) :
    (counter + countOf condition).toNat = counter.toNat + condition.toNat := by
  rw [← toNat_countOf] at fits ⊢
  exact toNat_add_of_lt fits

/-- None of the counters that a sample is added to overflows. -/
structure Takes (addr : UInt16) (sample : Sample) (profile : Profile) : Prop where
  cell : ∀ table : Table, table.ofCell (profile.cell addr) + table.ofSample sample < 2 ^ 64
  cycles : profile.totals.cycles.toNat + sample.cycles.toNat < 2 ^ 64
  branchesTaken :
    profile.totals.branchesTaken.toNat + (sample.branch == some true).toNat < 2 ^ 64
  branchPageCross : profile.totals.branchPageCross.toNat + sample.branchCross.toNat < 2 ^ 64
  indexPageCross : profile.totals.indexPageCross.toNat + sample.indexCross.toNat < 2 ^ 64
  noEffect : profile.totals.noEffect.toNat + (!sample.effect).toNat < 2 ^ 64

namespace Table

theorem ofCell_add {table : Table} {cell : CellProfile} {sample : Sample}
    (fits : table.ofCell cell + table.ofSample sample < 2 ^ 64) :
    table.ofCell (cell.add sample) = table.ofCell cell + table.ofSample sample := by
  cases table with
  | cycles => exact toNat_add_of_lt fits
  | branches => exact toNat_add_countOf fits
  | extra =>
    have crossed : (countOf sample.branchCross + countOf sample.indexCross).toNat =
        sample.branchCross.toNat + sample.indexCross.toNat := by
      cases sample.branchCross <;> cases sample.indexCross <;> rfl
    change cell.extra.toNat + (sample.branchCross.toNat + sample.indexCross.toNat) < _ at fits
    rw [← crossed] at fits
    exact (toNat_add_of_lt fits).trans (congrArg _ crossed)
  | noEffect => exact toNat_add_countOf fits

theorem ofTotals_add (table : Table) {profile : Profile} {addr : UInt16} {sample : Sample}
    (takes : profile.Takes addr sample) :
    table.ofTotals (profile.totals.add sample) =
      table.ofTotals profile.totals + table.ofSample sample := by
  cases table with
  | cycles => exact toNat_add_of_lt takes.cycles
  | branches => exact toNat_add_countOf takes.branchesTaken
  | extra =>
    have branch := toNat_add_countOf takes.branchPageCross
    have index := toNat_add_countOf takes.indexPageCross
    exact (congrArg₂ (· + ·) branch index).trans (Nat.add_add_add_comm _ _ _ _)
  | noEffect => exact toNat_add_countOf takes.noEffect

/-- A change at one place changes a sum by what it changes there. -/
theorem sum_map_modify {measure : CellProfile → Nat} {change : CellProfile → CellProfile}
    {cells : List CellProfile} {index : Nat} (inside : index < cells.length) {added : Nat}
    (grows : measure (change cells[index]) = measure cells[index] + added) :
    ((cells.modify index change).map measure).sum = (cells.map measure).sum + added := by
  induction cells generalizing index with
  | nil => cases inside
  | cons cell rest inductionHypothesis =>
    cases index with
    | zero =>
      change measure (change cell) + _ = measure cell + _ + added
      have here : measure (change cell) = measure cell + added := grows
      rw [here, Nat.add_right_comm]
    | succ index =>
      have later := inductionHypothesis (Nat.lt_of_succ_lt_succ inside) grows
      change measure cell + ((rest.modify index change).map measure).sum =
        measure cell + (rest.map measure).sum + added
      rw [later, Nat.add_assoc]

theorem sum_new (table : Table) (size : Nat) : table.sum (.new size) = 0 := by
  unfold sum Profile.new
  cases table <;> simp [ofCell]

theorem sum_record (table : Table) {profile : Profile} {addr : UInt16} {sample : Sample}
    (takes : profile.Takes addr sample) :
    table.sum (profile.record addr sample) =
      table.sum profile + if profile.size ≤ addr.toNat then 0 else table.ofSample sample := by
  unfold sum Profile.record
  rw [Array.toList_modify]
  split
  next past =>
    have same : profile.cells.toList.modify addr.toNat (·.add sample) = profile.cells.toList :=
      List.modify_eq_self past
    rw [same, Nat.add_zero]
  next reached =>
    have inside : addr.toNat < profile.cells.size := Nat.lt_of_not_le reached
    have found : profile.cell addr = profile.cells.toList[addr.toNat] := by
      simp [Profile.cell, inside]
    apply sum_map_modify inside
    apply ofCell_add
    rw [← found]
    exact takes.cell table

theorem outside_append (table : Table) (size : Nat) (samples : List (UInt16 × Sample))
    (addr : UInt16) (sample : Sample) :
    table.outside size (samples ++ [(addr, sample)]) =
      table.outside size samples + if size ≤ addr.toNat then table.ofSample sample else 0 := by
  unfold outside
  by_cases past : size ≤ addr.toNat
  · simp [List.filter_append, past]
  · simp [List.filter_append, past]

theorem outside_of_whole (table : Table) {size : Nat} (whole : 65536 ≤ size)
    (samples : List (UInt16 × Sample)) : table.outside size samples = 0 := by
  have empty : samples.filter (fun entry => size ≤ entry.1.toNat) = [] := by
    rw [List.filter_eq_nil_iff]
    intro entry _
    have below := entry.1.toNat_lt
    simpa using Nat.lt_of_lt_of_le below whole
  unfold outside
  rw [empty]
  rfl

end Table

/-- What is read from the file of a profile is that profile, if the file has room for its size. -/
theorem eq_of_decode_encode {profile read : Profile} (counted : profile.size < 256 ^ 4)
    (decoded : decode profile.encode = .ok read) : read = profile := by
  have whole := decode_encode_of_counted counted []
  rw [List.append_nil, decoded] at whole
  split at whole
  next large => cases whole
  next small => exact Except.ok.inj whole

/-- The profiles that a new one of `size` addresses becomes by recording samples, by being saved and loaded, and by
being set in a machine that goes on with it. A file has four bytes for the size; a profile with more addresses than they
can count is not read back. -/
inductive Obtained (size : Nat) : List (UInt16 × Sample) → Profile → Prop where
  | new : Obtained size [] (.new size)
  | record {samples : List (UInt16 × Sample)} {profile : Profile}
      (obtained : Obtained size samples profile) {addr : UInt16} {sample : Sample}
      (takes : profile.Takes addr sample) :
      Obtained size (samples ++ [(addr, sample)]) (profile.record addr sample)
  | reload {samples : List (UInt16 × Sample)} {profile read : Profile}
      (obtained : Obtained size samples profile) (counted : profile.size < 256 ^ 4)
      (decoded : decode profile.encode = .ok read) : Obtained size samples read
  | install {samples : List (UInt16 × Sample)} {profile running : Profile} {σ : Type} {v w : World σ}
      {bytes : List UInt8} (obtained : Obtained size samples profile)
      (decoded : decode bytes = .ok profile) (loaded : w.loadProfile bytes = (.ok (), v))
      (profiling : v.instruments.profile = some running) : Obtained size samples running

/-- Recording adds to the totals what it adds to the tables or leaves outside; a profile that is read back or set is
the one that there was. -/
theorem Obtained.balanced {size : Nat} {samples : List (UInt16 × Sample)} {profile : Profile}
    (obtained : Obtained size samples profile) :
    profile.size = size ∧ ∀ table : Table,
      table.ofTotals profile.totals = table.sum profile + table.outside size samples := by
  induction obtained with
  | new =>
    refine ⟨size_new size, ?_⟩
    intro table
    rw [table.sum_new]
    cases table <;> rfl
  | @record samples profile obtained addr sample takes inductionHypothesis =>
    obtain ⟨sized, balanced⟩ := inductionHypothesis
    refine ⟨(profile.size_record addr sample).trans sized, ?_⟩
    intro table
    have totals : (profile.record addr sample).totals = profile.totals.add sample := rfl
    rw [totals, table.ofTotals_add takes, table.sum_record takes, table.outside_append, balanced,
      sized]
    split <;> omega
  | reload obtained counted decoded inductionHypothesis =>
    rw [eq_of_decode_encode counted decoded]
    exact inductionHypothesis
  | @install samples profile running σ v w bytes obtained decoded loaded profiling
      inductionHypothesis =>
    obtain ⟨found, read, -, rfl⟩ := World.exists_of_loadProfile loaded
    have same : running = profile :=
      (Option.some.inj profiling).symm.trans (Except.ok.inj (read.symm.trans decoded))
    rw [same]
    exact inductionHypothesis

/-- The totals of a profile are the sums of its tables, with what has been recorded outside on top; so they are just
the sums where the profile has all addresses. -/
theorem totals_are_sums_of_tables {size : Nat} {samples : List (UInt16 × Sample)} {profile : Profile}
    (obtained : Obtained size samples profile) :
    profile.size = size ∧
      (∀ table : Table,
        table.ofTotals profile.totals = table.sum profile + table.outside size samples) ∧
      (65536 ≤ size → ∀ table : Table, table.ofTotals profile.totals = table.sum profile) := by
  obtain ⟨sized, balanced⟩ := obtained.balanced
  refine ⟨sized, balanced, ?_⟩
  intro whole table
  rw [balanced table, table.outside_of_whole whole, Nat.add_zero]

/-- A taken branch to another page. -/
def pageBranch : Sample :=
  { cycles := 4, branch := some true, branchCross := true, effect := true }

/-- A profile of two addresses, with a branch at the first and an instruction behind both. -/
def pageBranchAndBehind : Profile :=
  ((new 2).record 0 pageBranch).record 5 { cycles := 2 }

theorem pageBranchAndBehind_sums :
    Obtained 2 [(0, pageBranch), (5, { cycles := 2 })] pageBranchAndBehind ∧
      pageBranchAndBehind.size = 2 ∧
        (∀ table : Table, table.ofTotals pageBranchAndBehind.totals =
          table.sum pageBranchAndBehind +
            table.outside 2 [(0, pageBranch), (5, { cycles := 2 })]) ∧
          Table.cycles.ofTotals pageBranchAndBehind.totals = 6 ∧
            Table.cycles.sum pageBranchAndBehind = 4 := by
  have first : (new 2).Takes 0 pageBranch := by
    refine ⟨fun table => ?_, ?_, ?_, ?_, ?_, ?_⟩
    · cases table <;> decide
    all_goals decide
  have second : ((new 2).record 0 pageBranch).Takes 5 { cycles := 2 } := by
    refine ⟨fun table => ?_, ?_, ?_, ?_, ?_, ?_⟩
    · cases table <;> decide
    all_goals decide
  have small : pageBranchAndBehind.size ≤ maxSize := by decide
  have decoded := decode_encode small []
  rw [List.append_nil] at decoded
  let w : World Unit := .ofSettings { memSize := 2 } {} ()
  have loaded : w.loadProfile pageBranchAndBehind.encode =
      (.ok (), w.withProfile pageBranchAndBehind) := by
    apply World.loadProfile_encode
    · decide
    · decide
  have recorded := (Obtained.new.record first).record second
  have obtained := (recorded.reload (by decide) decoded).install decoded loaded rfl
  obtain ⟨sized, balanced, -⟩ := totals_are_sums_of_tables obtained
  exact ⟨obtained, sized, balanced, by decide, by decide⟩

end Mos6502.Profile
