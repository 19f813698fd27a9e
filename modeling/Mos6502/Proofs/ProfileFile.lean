import Mathlib.Algebra.Group.Nat.Defs
import Mos6502.Profile.File

/-!
# Profiles and their files

What is written of a profile is read back, whatever follows it: numbers byte by byte, a list of counters counter by
counter, the four tables column by column. The other way round, what a profile is read from begins as the profile is
written, since every number that is read is written with the bytes that it was read from.

A reader that has bytes enough gives the same answer when more bytes follow (`Settles`). So a profile that is cut off
is read as too short: any other answer would be that of the whole.
-/

namespace Mos6502.Profile

@[simp]
theorem length_littleEndian (width value : Nat) : (littleEndian width value).length = width := by
  induction width generalizing value with
  | zero => rfl
  | succ width inductionHypothesis => rw [littleEndian, List.length_cons, inductionHypothesis]

/-- As many bytes as a number has keep all of it. -/
theorem ofLittleEndian_littleEndian {width value : Nat} (fits : value < 256 ^ width) :
    ofLittleEndian (littleEndian width value) = value := by
  induction width generalizing value with
  | zero =>
    rw [Nat.pow_zero, Nat.lt_one_iff] at fits
    rw [fits]
    rfl
  | succ width inductionHypothesis =>
    have high : value / 256 < 256 ^ width := by
      apply Nat.div_lt_of_lt_mul
      rwa [← Nat.pow_succ']
    have low : (UInt8.ofNat (value % 256)).toNat = value % 256 := by
      apply UInt8.toNat_ofNat_of_lt'
      exact Nat.mod_lt value (by decide)
    rw [littleEndian, ofLittleEndian, inductionHypothesis high, low]
    exact Nat.mod_add_div value 256

@[simp]
theorem length_counterBytes (counter : UInt64) : (counterBytes counter).length = 8 :=
  length_littleEndian 8 counter.toNat

theorem takeBytes?_append {count : Nat} {front : List UInt8} (complete : front.length = count)
    (rest : List UInt8) : takeBytes? count (front ++ rest) = some (front, rest) := by
  subst complete
  unfold takeBytes?
  rw [List.take_left, List.drop_left]
  exact if_pos rfl

theorem ofNat_counterBytes (counter : UInt64) :
    UInt64.ofNat (ofLittleEndian (counterBytes counter)) = counter := by
  have fits : counter.toNat < 256 ^ 8 := counter.toNat_lt
  rw [counterBytes, ofLittleEndian_littleEndian fits, UInt64.ofNat_toNat]

/-- Written counters are read one after the other. -/
theorem takeCounters?_append {count : Nat} {counters : List UInt64} (complete : counters.length = count)
    (taken : List UInt64) (rest : List UInt8) :
    takeCounters? count taken (counters.flatMap counterBytes ++ rest) =
      some (taken.reverse ++ counters, rest) := by
  induction counters generalizing count taken with
  | nil =>
    subst complete
    rw [List.append_nil]
    rfl
  | cons counter counters inductionHypothesis =>
    subst complete
    rw [List.flatMap_cons, List.append_assoc, List.length_cons, takeCounters?,
      takeBytes?_append (length_counterBytes counter)]
    dsimp only
    rw [ofNat_counterBytes, inductionHypothesis rfl, List.reverse_cons, List.append_assoc]
    rfl

theorem joinTables_columns (cells : List CellProfile) :
    joinTables (cells.map (·.cycles)) (cells.map (·.branches)) (cells.map (·.extra))
      (cells.map (·.noEffect)) = cells := by
  induction cells with
  | nil => rfl
  | cons cell cells inductionHypothesis =>
    exact congrArg (cell :: ·) inductionHypothesis

theorem decodeTables?_counters (profile : Profile) (rest : List UInt8) :
    decodeTables? profile.size (profile.counters.flatMap counterBytes ++ rest) = some profile := by
  have column (field : CellProfile → UInt64) :
      (profile.cells.toList.map field).length = profile.size := by
    rw [List.length_map, Array.length_toList]
    rfl
  have totals : (totalsList profile.totals).length = 8 := rfl
  unfold decodeTables? counters
  simp only [List.flatMap_append, List.append_assoc, takeCounters?_append (column _),
    takeCounters?_append totals, Option.bind_eq_bind, Option.bind_some, List.reverse_nil,
    List.nil_append, joinTables_columns, Array.toArray_toList]
  rfl

/-- A profile whose size the file has room for is read back, whatever bytes follow, or refused for its size. -/
theorem decode_encode_of_counted {profile : Profile} (counted : profile.size < 256 ^ 4)
    (rest : List UInt8) :
    decode (profile.encode ++ rest) =
      if maxSize < profile.size then .error (.tooLarge profile.size) else .ok profile := by
  have signed : signature.length = 9 := rfl
  have version : ofLittleEndian (littleEndian 2 formatVersion) = formatVersion :=
    ofLittleEndian_littleEndian (by decide)
  have size := ofLittleEndian_littleEndian counted
  unfold decode encode
  simp only [List.append_assoc]
  rw [takeBytes?_append signed]
  dsimp only
  rw [if_neg (not_not_intro rfl), takeBytes?_append (length_littleEndian 2 formatVersion)]
  dsimp only
  rw [if_neg (not_not_intro version), takeBytes?_append (length_littleEndian 4 profile.size)]
  dsimp only
  rw [size, decodeTables?_counters]

/-- A profile that is no larger than an address space is read back from its file, whatever bytes follow. -/
theorem decode_encode {profile : Profile} (small : profile.size ≤ maxSize) (rest : List UInt8) :
    decode (profile.encode ++ rest) = .ok profile := by
  have counted : profile.size < 256 ^ 4 := Nat.lt_of_le_of_lt small (by decide)
  rw [decode_encode_of_counted counted, if_neg (Nat.not_lt.mpr small)]

theorem takeBytes?_eq_some_iff {count : Nat} {bytes front rest : List UInt8} :
    takeBytes? count bytes = some (front, rest) ↔ bytes = front ++ rest ∧ front.length = count := by
  constructor
  · intro took
    simp only [takeBytes?, Option.ite_none_right_eq_some, Option.some.injEq, Prod.mk.injEq] at took
    obtain ⟨complete, rfl, rfl⟩ := took
    exact ⟨(List.take_append_drop count bytes).symm, complete⟩
  · rintro ⟨rfl, complete⟩
    exact takeBytes?_append complete rest

/-- What is taken off the front does not depend on how the bytes go on. -/
theorem takeBytes?_append_right {count : Nat} {bytes front rest : List UInt8}
    (took : takeBytes? count bytes = some (front, rest)) (more : List UInt8) :
    takeBytes? count (bytes ++ more) = some (front, rest ++ more) := by
  obtain ⟨rfl, complete⟩ := takeBytes?_eq_some_iff.mp took
  simp [takeBytes?_append complete]

theorem ofLittleEndian_lt (bytes : List UInt8) : ofLittleEndian bytes < 256 ^ bytes.length := by
  induction bytes with
  | nil => simp [ofLittleEndian]
  | cons byte rest inductionHypothesis =>
    have low := byte.toNat_lt
    simp only [ofLittleEndian, List.length_cons, Nat.pow_succ]
    omega

/-- Bytes are the ones that are written of the number that they stand for. -/
theorem littleEndian_ofLittleEndian {width : Nat} {bytes : List UInt8} (complete : bytes.length = width) :
    littleEndian width (ofLittleEndian bytes) = bytes := by
  subst complete
  induction bytes with
  | nil => rfl
  | cons byte rest inductionHypothesis =>
    have low : (byte.toNat + 256 * ofLittleEndian rest) % 256 = byte.toNat := by
      have small := byte.toNat_lt
      omega
    have high : (byte.toNat + 256 * ofLittleEndian rest) / 256 = ofLittleEndian rest := by
      have small := byte.toNat_lt
      omega
    simp [littleEndian, ofLittleEndian, low, high, inductionHypothesis]

theorem counterBytes_ofNat {bytes : List UInt8} (complete : bytes.length = 8) :
    counterBytes (UInt64.ofNat (ofLittleEndian bytes)) = bytes := by
  have fits : ofLittleEndian bytes < UInt64.size := by
    have bound := ofLittleEndian_lt bytes
    rwa [complete] at bound
  rw [counterBytes, UInt64.toNat_ofNat_of_lt' fits, littleEndian_ofLittleEndian complete]

theorem takeCounters?_eq_some_iff {count : Nat} {taken read : List UInt64} {bytes rest : List UInt8} :
    takeCounters? count taken bytes = some (read, rest) ↔
      ∃ counters : List UInt64, counters.length = count ∧ read = taken.reverse ++ counters ∧
        bytes = counters.flatMap counterBytes ++ rest := by
  constructor
  · intro took
    induction count generalizing taken bytes with
    | zero =>
      simp only [takeCounters?, Option.some.injEq, Prod.mk.injEq] at took
      obtain ⟨rfl, rfl⟩ := took
      exact ⟨[], rfl, by simp, rfl⟩
    | succ count inductionHypothesis =>
      cases first : takeBytes? 8 bytes with
      | none => simp [takeCounters?, first] at took
      | some split =>
        obtain ⟨front, behind⟩ := split
        simp only [takeCounters?, first] at took
        obtain ⟨counters, length, rfl, rfl⟩ := inductionHypothesis took
        obtain ⟨rfl, complete⟩ := takeBytes?_eq_some_iff.mp first
        refine ⟨UInt64.ofNat (ofLittleEndian front) :: counters, by simp [length], by simp, ?_⟩
        simp [counterBytes_ofNat complete]
  · rintro ⟨counters, length, rfl, rfl⟩
    exact takeCounters?_append length taken rest

theorem totalsOfList?_eq_some_iff {counters : List UInt64} {totals : ProfileTotals} :
    totalsOfList? counters = some totals ↔ counters = totalsList totals := by
  constructor
  · intro read
    unfold totalsOfList? at read
    split at read
    · cases read
      rfl
    · cases read
  · rintro rfl
    rfl

/-- Columns of one length are those of a list of cells. -/
theorem exists_columns {size : Nat} {cycles branches extra noEffect : List UInt64}
    (cyclesLength : cycles.length = size) (branchesLength : branches.length = size)
    (extraLength : extra.length = size) (noEffectLength : noEffect.length = size) :
    ∃ cells : List CellProfile, cells.length = size ∧ cycles = cells.map (·.cycles) ∧
      branches = cells.map (·.branches) ∧ extra = cells.map (·.extra) ∧
      noEffect = cells.map (·.noEffect) := by
  induction size generalizing cycles branches extra noEffect with
  | zero =>
    rw [List.length_eq_zero_iff] at cyclesLength branchesLength extraLength noEffectLength
    exact ⟨[], rfl, cyclesLength, branchesLength, extraLength, noEffectLength⟩
  | succ size inductionHypothesis =>
    obtain ⟨c, cycles, rfl⟩ := List.exists_cons_of_length_eq_add_one cyclesLength
    obtain ⟨b, branches, rfl⟩ := List.exists_cons_of_length_eq_add_one branchesLength
    obtain ⟨e, extra, rfl⟩ := List.exists_cons_of_length_eq_add_one extraLength
    obtain ⟨n, noEffect, rfl⟩ := List.exists_cons_of_length_eq_add_one noEffectLength
    simp only [List.length_cons, Nat.add_right_cancel_iff] at cyclesLength branchesLength
    simp only [List.length_cons, Nat.add_right_cancel_iff] at extraLength noEffectLength
    obtain ⟨cells, length, rfl, rfl, rfl, rfl⟩ :=
      inductionHypothesis cyclesLength branchesLength extraLength noEffectLength
    exact ⟨⟨c, b, e, n⟩ :: cells, by simp [length], rfl, rfl, rfl, rfl⟩

theorem decodeTables?_eq_some_iff {size : Nat} {bytes : List UInt8} {profile : Profile} :
    decodeTables? size bytes = some profile ↔
      profile.size = size ∧ profile.counters.flatMap counterBytes <+: bytes := by
  constructor
  · intro read
    simp only [decodeTables?, Option.bind_eq_bind, Option.bind_eq_some_iff, Prod.exists,
      takeCounters?_eq_some_iff, totalsOfList?_eq_some_iff, List.reverse_nil, List.nil_append] at read
    obtain ⟨cycles, _, ⟨_, cyclesLength, rfl, rfl⟩, branches, _, ⟨_, branchesLength, rfl, rfl⟩,
      extra, _, ⟨_, extraLength, rfl, rfl⟩, noEffect, _, ⟨_, noEffectLength, rfl, rfl⟩,
      _, rest, ⟨_, -, rfl, rfl⟩, totals, rfl, made⟩ := read
    obtain ⟨cells, length, rfl, rfl, rfl, rfl⟩ :=
      exists_columns cyclesLength branchesLength extraLength noEffectLength
    rw [joinTables_columns] at made
    obtain rfl := Option.some.inj made
    refine ⟨length, rest, ?_⟩
    simp [counters]
  · rintro ⟨rfl, rest, rfl⟩
    exact decodeTables?_counters profile rest

/-- A file is read as a profile exactly if it begins as the profile is written. -/
theorem decode_eq_ok_iff {bytes : List UInt8} {profile : Profile} :
    decode bytes = .ok profile ↔ profile.size ≤ maxSize ∧ profile.encode <+: bytes := by
  constructor
  · intro read
    unfold decode at read
    split at read
    · cases read
    next front behindSignature tookSignature =>
    split at read
    · cases read
    next signed =>
    split at read
    · cases read
    next version behindVersion tookVersion =>
    split at read
    · cases read
    next current =>
    split at read
    · cases read
    next sizeBytes tables tookSize =>
    split at read
    · cases read
    next small =>
    split at read
    · cases read
    next readProfile readTables =>
    cases read
    obtain ⟨size, rest, rfl⟩ := decodeTables?_eq_some_iff.mp readTables
    obtain ⟨rfl, -⟩ := takeBytes?_eq_some_iff.mp tookSignature
    obtain ⟨rfl, versionLength⟩ := takeBytes?_eq_some_iff.mp tookVersion
    obtain ⟨rfl, sizeLength⟩ := takeBytes?_eq_some_iff.mp tookSize
    rw [Decidable.not_not] at signed current
    rw [Nat.not_lt, ← size] at small
    refine ⟨small, rest, ?_⟩
    simp only [encode, size, ← current, ← signed, littleEndian_ofLittleEndian versionLength,
      littleEndian_ofLittleEndian sizeLength, List.append_assoc]
  · rintro ⟨small, rest, rfl⟩
    exact decode_encode small rest

variable {α : Type}

/-- An answer that does not ask for more bytes stays the same whatever bytes follow. -/
def Settles (read : List UInt8 → Except ProfileError α) : Prop :=
  ∀ bytes, read bytes ≠ .error tooShort → ∀ more, read (bytes ++ more) = read bytes

theorem settles_const (result : Except ProfileError α) : Settles fun _ => result :=
  fun _ _ _ => rfl

theorem Settles.ite {condition : Prop} [Decidable condition]
    {yes no : List UInt8 → Except ProfileError α} (settlesYes : Settles yes) (settlesNo : Settles no) :
    Settles fun bytes => if condition then yes bytes else no bytes := by
  split
  · exact settlesYes
  · exact settlesNo

theorem settles_take {count : Nat} {next : List UInt8 → List UInt8 → Except ProfileError α}
    (each : ∀ front, Settles (next front)) :
    Settles fun bytes =>
      match takeBytes? count bytes with
      | none => .error tooShort
      | some (front, rest) => next front rest := by
  intro bytes enough more
  cases took : takeBytes? count bytes with
  | none => simp [took] at enough
  | some parts =>
    obtain ⟨front, rest⟩ := parts
    simp only [took, takeBytes?_append_right took] at enough ⊢
    exact each front rest enough more

theorem settles_tables (size : Nat) :
    Settles fun bytes =>
      match decodeTables? size bytes with
      | none => .error tooShort
      | some profile => .ok profile := by
  intro bytes enough more
  cases read : decodeTables? size bytes with
  | none => simp [read] at enough
  | some profile =>
    obtain ⟨same, whole⟩ := decodeTables?_eq_some_iff.mp read
    have longer := decodeTables?_eq_some_iff.mpr ⟨same, whole.trans (List.prefix_append bytes more)⟩
    simp only [longer, read]

theorem settles_decode : Settles decode := by
  unfold decode
  apply settles_take
  intro front
  apply Settles.ite (settles_const _)
  apply settles_take
  intro version
  apply Settles.ite (settles_const _)
  apply settles_take
  intro size
  apply Settles.ite (settles_const _)
  exact settles_tables _

/-- A proper prefix of a written profile is too short to be read. -/
theorem decode_eq_tooShort {profile : Profile} (small : profile.size ≤ maxSize) {front : List UInt8}
    (part : front <+: profile.encode) (proper : front ≠ profile.encode) :
    decode front = .error tooShort := by
  obtain ⟨rest, whole⟩ := part
  by_cases short : decode front = .error tooShort
  · exact short
  · have read := decode_encode small []
    rw [List.append_nil, ← whole, settles_decode front short rest] at read
    -- What can be read without the rest would have to begin with the whole.
    have long : profile.encode.length ≤ front.length := (decode_eq_ok_iff.mp read).2.length_le
    exact absurd (List.IsPrefix.eq_of_length_le ⟨rest, whole⟩ long) proper

/-- A file is read as a profile exactly if the profile covers no more than an address space, and the file begins as the
profile is written. So such a profile is read back from what is written of it, and nothing that is cut off earlier is
read as a profile. -/
theorem file_begins_as_written (profile : Profile) (bytes : List UInt8) :
    (decode bytes = .ok profile ↔ profile.size ≤ maxSize ∧ profile.encode <+: bytes) ∧
      (profile.size ≤ maxSize → decode profile.encode = .ok profile ∧
        ∀ front, front <+: profile.encode → front ≠ profile.encode →
          decode front = .error (.unreadable "failed to fill whole buffer")) := by
  refine ⟨decode_eq_ok_iff, ?_⟩
  intro small
  refine ⟨decode_eq_ok_iff.mpr ⟨small, List.prefix_refl _⟩, ?_⟩
  intro front part proper
  exact decode_eq_tooShort small part proper

/-- One address with a single instruction, which was without effect. -/
def loneNop : Profile :=
  { cells := #[{ cycles := 0x0102, noEffect := 1 }]
    totals := { instructions := 1, cycles := 0x0102, noEffect := 1 } }

theorem loneNop_begins_as_written :
    loneNop.size ≤ maxSize ∧ decode (loneNop.encode ++ [0x07]) = .ok loneNop ∧
      decode (loneNop.encode.take 100) = .error (.unreadable "failed to fill whole buffer") := by
  have small : loneNop.size ≤ maxSize := by decide
  have proper : loneNop.encode.take 100 ≠ loneNop.encode := by
    intro same
    have length := congrArg List.length same
    revert length
    decide +kernel
  obtain ⟨read, -⟩ := file_begins_as_written loneNop (loneNop.encode ++ [0x07])
  obtain ⟨-, cut⟩ := file_begins_as_written loneNop []
  refine ⟨small, read.mpr ⟨small, List.prefix_append _ _⟩, ?_⟩
  exact (cut small).2 _ (List.take_prefix 100 _) proper

end Mos6502.Profile
