import Mos6502.Profile.Report
import Mos6502.Proofs.ProfileFile

/-!
# Hot spots

A report sorts the addresses on which cycles were spent, dearest first and lower addresses first among equals, and shows
the first of them. No two cells are level, so the order is strict, and what a report leaves out ranks behind all that it
shows.

A profile can have more cells than there are addresses. But samples are recorded at addresses, and a file has no room
for more, so no cycles are spent on the cells behind the last address: the address of a hot spot is the number of its
cell.
-/

namespace Mos6502

/-- The number of the cell that a hot spot stands for, with its counters. -/
def HotSpot.entry (spot : HotSpot) : Nat × CellProfile :=
  (spot.addr.toNat, spot.counters)

namespace Profile

/-- The profiles that there are: new ones of any size, those that are read from files, and what recording makes of
them. -/
inductive Reachable : Profile → Prop where
  | new (size : Nat) : Reachable (.new size)
  | record {profile : Profile} (reachable : Reachable profile) (addr : UInt16) (sample : Sample) :
      Reachable (profile.record addr sample)
  | load {bytes : List UInt8} {profile : Profile} (decoded : decode bytes = .ok profile) :
      Reachable profile

/-- All cells with cycles have an address. -/
def Addressable (profile : Profile) : Prop :=
  ∀ (index : Nat) (cell : CellProfile),
    profile.cells[index]? = some cell → 0 < cell.cycles → index < UInt16.size

theorem addressable_new (size : Nat) : (new size).Addressable := by
  intro index cell found spent
  rw [new, Array.getElem?_replicate] at found
  split at found
  · cases found
    cases spent
  · cases found

theorem Addressable.record {profile : Profile} (addressable : profile.Addressable) (addr : UInt16)
    (sample : Sample) : (profile.record addr sample).Addressable := by
  intro index cell found spent
  change (profile.cells.modify addr.toNat (·.add sample))[index]? = some cell at found
  rw [Array.getElem?_modify] at found
  split at found
  next here =>
    rw [← here]
    exact addr.toNat_lt
  next elsewhere => exact addressable index cell found spent

theorem addressable_of_decode {bytes : List UInt8} {profile : Profile}
    (decoded : decode bytes = .ok profile) : profile.Addressable := by
  have small : profile.size ≤ maxSize := (decode_eq_ok_iff.mp decoded).1
  intro index cell found _
  have inside : index < profile.size := (Array.getElem?_eq_some_iff.mp found).1
  exact Nat.lt_of_lt_of_le inside small

theorem Reachable.addressable {profile : Profile} (reachable : Reachable profile) :
    profile.Addressable := by
  induction reachable with
  | new size => exact addressable_new size
  | record _ addr sample inductionHypothesis => exact inductionHypothesis.record addr sample
  | load decoded => exact addressable_of_decode decoded

/-- One numbered cell comes before another: it has more cycles, or as many and the lower number. -/
def Outranks (left right : Nat × CellProfile) : Prop :=
  right.2.cycles < left.2.cycles ∨ left.2.cycles = right.2.cycles ∧ left.1 < right.1

theorem ranksBefore_iff {left right : Nat × CellProfile} :
    ranksBefore left right = true ↔
      right.2.cycles < left.2.cycles ∨ left.2.cycles = right.2.cycles ∧ left.1 ≤ right.1 := by
  simp [ranksBefore]

theorem ranksBefore_trans (left middle right : Nat × CellProfile)
    (first : ranksBefore left middle = true) (second : ranksBefore middle right = true) :
    ranksBefore left right = true := by
  simp only [ranksBefore_iff, UInt64.lt_iff_toNat_lt, ← UInt64.toNat_inj] at first second ⊢
  omega

theorem ranksBefore_total (left right : Nat × CellProfile) :
    (ranksBefore left right || ranksBefore right left) = true := by
  simp only [Bool.or_eq_true, ranksBefore_iff, UInt64.lt_iff_toNat_lt, ← UInt64.toNat_inj]
  omega

theorem outranks_of_ranksBefore {left right : Nat × CellProfile}
    (before : ranksBefore left right = true) (apart : left.1 ≠ right.1) : Outranks left right := by
  rcases ranksBefore_iff.mp before with dearer | ⟨level, le⟩
  · exact .inl dearer
  · exact .inr ⟨level, Nat.lt_of_le_of_ne le apart⟩

section

variable (profile : Profile)

/-- A ranking is the cells with cycles, in another order. -/
theorem ranking_perm :
    profile.ranking.Perm
      (((List.range profile.size).zip profile.cells.toList).filter fun cell => 0 < cell.2.cycles) :=
  List.mergeSort_perm _ _

/-- Its entries are the cells with cycles, each with its own number. -/
theorem mem_ranking_iff {profile : Profile} {index : Nat} {cell : CellProfile} :
    (index, cell) ∈ profile.ranking ↔ profile.cells[index]? = some cell ∧ 0 < cell.cycles := by
  have numbered : (index, cell) ∈ (List.range profile.size).zip profile.cells.toList ↔
      profile.cells[index]? = some cell := by
    rw [List.mem_iff_getElem?, ← Array.getElem?_toList]
    constructor
    · rintro ⟨place, found⟩
      obtain ⟨counted, found⟩ := List.getElem?_zip_eq_some.mp found
      obtain ⟨_, same⟩ := List.getElem?_eq_some_iff.mp counted
      rw [List.getElem_range] at same
      rwa [← show place = index from same]
    · intro found
      have inside : index < profile.size := (List.getElem?_eq_some_iff.mp found).1
      exact ⟨index, List.getElem?_zip_eq_some.mpr ⟨List.getElem?_range inside, found⟩⟩
  rw [profile.ranking_perm.mem_iff, List.mem_filter, numbered]
  simp

theorem length_ranking :
    profile.ranking.length = profile.cells.toList.countP fun cell => 0 < cell.cycles := by
  have columns : ((List.range profile.size).zip profile.cells.toList).map (·.2) =
      profile.cells.toList := by
    apply List.map_snd_zip
    simp [size]
  calc
    profile.ranking.length
      = ((List.range profile.size).zip profile.cells.toList).countP
          ((fun cell => 0 < cell.cycles) ∘ (·.2)) := by
        rw [profile.ranking_perm.length_eq, ← List.countP_eq_length_filter]
        rfl
    _ = _ := by rw [← List.countP_map, columns]

theorem nodup_ranking : (profile.ranking.map (·.1)).Nodup := by
  have numbers : ((List.range profile.size).zip profile.cells.toList).map (·.1) =
      List.range profile.size := by
    apply List.map_fst_zip
    simp [size]
  rw [(profile.ranking_perm.map _).nodup_iff]
  refine List.Nodup.sublist (List.filter_sublist.map _) ?_
  rw [numbers]
  exact List.nodup_range

/-- No two cells of a ranking are level. -/
theorem pairwise_ranking : profile.ranking.Pairwise Outranks := by
  have sorted : profile.ranking.Pairwise fun left right => ranksBefore left right = true :=
    List.pairwise_mergeSort ranksBefore_trans ranksBefore_total _
  have apart := List.pairwise_map.mp profile.nodup_ranking
  exact sorted.imp₂ (fun _ _ before apart => outranks_of_ranksBefore before apart) apart

end

/-- What is listed of a profile when at most `top` hot spots are asked for, by the names of `labels`. -/
structure ListsTop (profile : Profile) (labels : Labels) (top : Nat) (spots : List HotSpot) : Prop where
  length : spots.length = min top (profile.cells.toList.countP fun cell => 0 < cell.cycles)
  distinct : (spots.map (·.addr)).Nodup
  ordered : spots.Pairwise fun left right => Outranks left.entry right.entry
  /-- Each entry has the counters of the cell that its address names, and the label there. -/
  genuine : ∀ spot ∈ spots,
    profile.cells[spot.addr.toNat]? = some spot.counters ∧ 0 < spot.counters.cycles ∧
      spot.label = labels.find? spot.addr
  /-- What is left out comes behind everything that is listed. -/
  complete : ∀ (index : Nat) (cell : CellProfile), profile.cells[index]? = some cell →
    0 < cell.cycles → (index, cell) ∉ spots.map HotSpot.entry →
      ∀ spot ∈ spots, Outranks spot.entry (index, cell)
  /-- Addresses are the numbers of the ranked cells, none of them cut off. -/
  untruncated : spots.map HotSpot.entry = profile.ranking.take top

/-- A cell in a ranking keeps its number as an address. -/
theorem Addressable.entry_of_mem {profile : Profile} (addressable : profile.Addressable)
    {row : Nat × CellProfile} (ranked : row ∈ profile.ranking) (label : Option String) :
    HotSpot.entry ⟨UInt16.ofNat row.1, label, row.2⟩ = row := by
  obtain ⟨found, spent⟩ := mem_ranking_iff.mp ranked
  have inside : row.1 < UInt16.size := addressable row.1 row.2 found spent
  exact Prod.ext (UInt16.toNat_ofNat_of_lt' inside) rfl

theorem Addressable.entries_report {profile : Profile} (addressable : profile.Addressable)
    (labels : Labels) (top : Nat) :
    (profile.report labels top).hotSpots.map HotSpot.entry = profile.ranking.take top := by
  have kept : ∀ row ∈ profile.ranking.take top,
      HotSpot.entry ⟨UInt16.ofNat row.1, labels.find? (UInt16.ofNat row.1), row.2⟩ = row :=
    fun row listed => addressable.entry_of_mem (List.mem_of_mem_take listed) _
  unfold report
  rw [List.map_map]
  exact (List.map_congr_left kept).trans (List.map_id _)

/-- The report of a profile lists its dearest cells: as many as are asked for or have cycles, in strict order, each with
its own counters and label, and everything else behind them. -/
theorem report_lists_top {profile : Profile} (reachable : Reachable profile) (labels : Labels)
    (top : Nat) : profile.ListsTop labels top (profile.report labels top).hotSpots := by
  have entries := reachable.addressable.entries_report labels top
  have parted : ((profile.ranking.take top) ++ profile.ranking.drop top).Pairwise Outranks := by
    rw [List.take_append_drop]
    exact profile.pairwise_ranking
  obtain ⟨ordered, -, apart⟩ := List.pairwise_append.mp parted
  have listed {spot : HotSpot} (member : spot ∈ (profile.report labels top).hotSpots) :
      spot.entry ∈ profile.ranking.take top := by
    rw [← entries]
    exact List.mem_map_of_mem member
  refine ⟨?_, ?_, ?_, ?_, ?_, entries⟩
  · have length := congrArg List.length entries
    rwa [List.length_map, List.length_take, profile.length_ranking] at length
  · have numbers : ((profile.report labels top).hotSpots.map (·.addr)).map UInt16.toNat =
        (profile.ranking.map (·.1)).take top := by
      rw [← List.map_take, ← entries, List.map_map, List.map_map]
      rfl
    have distinct : ((profile.ranking.map (·.1)).take top).Nodup :=
      profile.nodup_ranking.sublist (List.take_sublist top _)
    rw [← numbers] at distinct
    exact (List.pairwise_map.mp distinct).imp fun apart same => apart (congrArg UInt16.toNat same)
  · rw [← entries] at ordered
    exact List.pairwise_map.mp ordered
  · intro spot member
    obtain ⟨found, spent⟩ := mem_ranking_iff.mp (List.mem_of_mem_take (listed member))
    refine ⟨found, spent, ?_⟩
    obtain ⟨row, -, rfl⟩ := List.mem_map.mp member
    rfl
  · intro index cell found spent unlisted spot member
    have ranked : (index, cell) ∈ profile.ranking := mem_ranking_iff.mpr ⟨found, spent⟩
    rw [entries] at unlisted
    rw [← List.take_append_drop top profile.ranking, List.mem_append] at ranked
    exact apart _ (listed member) _ (ranked.resolve_left unlisted)

/-- Six cells, of which three have cycles and two of them as many. -/
def levelPair : Profile :=
  (((new 6).record 4 { cycles := 5 }).record 1 { cycles := 5 }).record 3 { cycles := 7 }

theorem levelPair_lists_top :
    Reachable levelPair ∧ levelPair.ListsTop {} 2 (levelPair.report {} 2).hotSpots ∧
      (levelPair.report {} 2).hotSpots.length = 2 := by
  have reachable : Reachable levelPair := (((Reachable.new 6).record 4 _).record 1 _).record 3 _
  have lists := report_lists_top reachable {} 2
  have found : min 2 (levelPair.cells.toList.countP fun cell => 0 < cell.cycles) = 2 := by decide +kernel
  exact ⟨reachable, lists, lists.length.trans found⟩

end Profile

end Mos6502
