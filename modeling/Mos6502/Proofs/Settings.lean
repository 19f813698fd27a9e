import Mos6502.Proofs.Json
import Mos6502.Settings

/-!
# Settings and their JSON form

Settings are within bounds if there is a memory of their size. Such settings are read back from what is written of them.
A text may spell settings in many ways, as an object or an array, with fields missing or unknown, with variants as names
or as objects; what is read of it is within bounds whichever it is, since the size is brought into range as it is read.
So it is read back as well.
-/

namespace Mos6502.Settings

open Json

theorem levelOfName?_name (level : ErrorLevel) : levelOfName? level.name = some level := by
  cases level <;> rfl

theorem word64Of?_number {value : Nat} (fits : value < bound64) :
    word64Of? (.number (some value)) = some value :=
  if_pos fits

theorem cyclesOf?_number (cycles : UInt64) :
    cyclesOf? (.number (some cycles.toNat)) = some cycles := by
  unfold cyclesOf?
  rw [word64Of?_number cycles.toNat_lt, Option.map_some, UInt64.ofNat_toNat]

theorem fillOf?_document (fill : Fill) : fillOf? (fillDocument fill).value = some fill := by
  cases fill with
  | zero => rfl
  | random seed =>
    have fits : word64Of? (.number (some seed.toNat)) = some seed.toNat :=
      word64Of?_number seed.toNat_lt
    have read : fillOf? (fillDocument (.random seed)).value =
        (word64Of? (.number (some seed.toNat))).bind fun number =>
          some (.random (UInt64.ofNat number)) := rfl
    rw [read, fits, Option.bind_some, UInt64.ofNat_toNat]

/-- There is a memory of this size. -/
structure InBounds (settings : Settings) : Prop where
  memSize_pos : 1 ≤ settings.memSize
  memSize_le : settings.memSize ≤ Memory.maxSize

theorem ofValue?_document {settings : Settings} (inBounds : settings.InBounds) :
    ofValue? settings.document.value = some settings := by
  have fields : settings.document.value.record? fieldNames =
      some [some (.number (some settings.memSize)), some (.string (some settings.level.name)),
        some (.number (some settings.cycleLimit.toNat)), some (.bool settings.trace),
        some (.bool settings.profile), some (.bool settings.metrics),
        some (fillDocument settings.fill).value] := rfl
  have memSize : word64Of? (.number (some settings.memSize)) = some settings.memSize :=
    word64Of?_number (Nat.lt_of_le_of_lt inBounds.memSize_le (by decide))
  have level : levelOf? (.string (some settings.level.name)) = some settings.level :=
    levelOfName?_name settings.level
  unfold ofValue?
  simp [fields, fieldOr, memSize, level, cyclesOf?_number, Value.bool?, fillOf?_document,
    Memory.clampSize_of_le inBounds.memSize_pos inBounds.memSize_le]

theorem inBounds_of_ofValue? {value : Value} {settings : Settings}
    (read : ofValue? value = some settings) : settings.InBounds := by
  unfold ofValue? at read
  simp only [Option.bind_eq_bind, Option.bind_eq_some_iff] at read
  obtain ⟨fields, -, read⟩ := read
  split at read
  next =>
    simp only [Option.bind_eq_some_iff] at read
    obtain ⟨memSize, -, level, -, cycleLimit, -, trace, -, profile, -, metrics, -, fill, -, rest⟩ :=
      read
    cases rest
    exact { memSize_pos := Memory.clampSize_pos memSize, memSize_le := Memory.clampSize_le memSize }
  next => cases read

theorem inBounds_of_parse? {text : String} {settings : Settings}
    (read : parse? text = some settings) : settings.InBounds := by
  obtain ⟨value, -, taken⟩ := Option.bind_eq_some_iff.mp read
  exact inBounds_of_ofValue? taken

/-- Reading the settings from what is written of them, on one line or on many, gives them unchanged. -/
structure ReadBack (settings : Settings) : Prop where
  compact : parse? settings.document.compact = some settings
  pretty (depth : Nat) : parse? (settings.document.pretty depth) = some settings

/-- Any text with the value of their document is read as the settings. -/
theorem InBounds.parse?_eq {settings : Settings} (inBounds : settings.InBounds) {text : String}
    (spelled : Json.parse? text = some settings.document.value) : parse? text = some settings := by
  have taken : parse? text = (Json.parse? text).bind ofValue? := rfl
  rw [taken, spelled, Option.bind_some, ofValue?_document inBounds]

theorem InBounds.readBack {settings : Settings} (inBounds : settings.InBounds) :
    settings.ReadBack where
  compact := inBounds.parse?_eq settings.document.parse?_compact
  pretty := fun depth => inBounds.parse?_eq (settings.document.parse?_pretty depth)

/-- Settings with a memory of one to 65536 bytes survive their JSON form, whatever the words of 64 bits in them. What is
read of any text whatsoever is of this kind, so that writing and reading it once more changes nothing. -/
theorem settings_survive_json (settings : Settings) :
    (1 ≤ settings.memSize → settings.memSize ≤ 65536 → settings.ReadBack) ∧
      ∀ text, parse? text = some settings →
        (1 ≤ settings.memSize ∧ settings.memSize ≤ 65536) ∧ settings.ReadBack := by
  constructor
  · intro positive small
    have inBounds : settings.InBounds := { memSize_pos := positive, memSize_le := small }
    exact inBounds.readBack
  · intro text read
    have inBounds := inBounds_of_parse? read
    exact ⟨⟨inBounds.memSize_pos, inBounds.memSize_le⟩, inBounds.readBack⟩

/-- The least memory with the largest numbers. -/
def extreme : Settings :=
  { memSize := 1, level := .none, cycleLimit := 0xFFFFFFFFFFFFFFFF, metrics := true
    fill := .random 0xFFFFFFFFFFFFFFFF }

/-- A size out of range, variants in their other spellings, an unknown field, and others missing. -/
def looseText : String :=
  "\x7b\"fill\": \x7b\"random\": [7]\x7d, \"mem_size\": 200000, \"note\": [-1.5e3],
    \"error_level\": \x7b\"full\": null\x7d\x7d"

def ofLooseText : Settings :=
  { level := .full, fill := .random 7 }

theorem extreme_and_loose_survive :
    (1 ≤ extreme.memSize ∧ extreme.memSize ≤ 65536 ∧ extreme.ReadBack) ∧
      parse? looseText = some ofLooseText ∧ ofLooseText.ReadBack := by
  have positive : 1 ≤ extreme.memSize := by decide
  have small : extreme.memSize ≤ 65536 := by decide
  have read : parse? looseText = some ofLooseText := by decide +kernel
  obtain ⟨survives, -⟩ := settings_survive_json extreme
  obtain ⟨-, survivesText⟩ := settings_survive_json ofLooseText
  obtain ⟨-, readBack⟩ := survivesText looseText read
  exact ⟨⟨positive, small, survives positive small⟩, read, readBack⟩

end Mos6502.Settings
