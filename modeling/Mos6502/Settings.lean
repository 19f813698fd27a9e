import Mos6502.Json.Parse
import Mos6502.Json.Document
import Mos6502.Memory.Basic
import Mos6502.Fault
import Mos6502.Word

/-!
Settings of a simulator and their JSON form. Missing fields have defaults, unknown ones are passed over, and
the memory size is brought into range on reading.
-/

namespace Mos6502

/-- Memory size and content, severity, cycle limit, and the instruments to switch on. -/
structure Settings where
  memSize : Nat := Memory.maxSize
  level : ErrorLevel := .memory
  /-- Zero stands for no limit. -/
  cycleLimit : UInt64 := 0
  trace : Bool := false
  profile : Bool := false
  metrics : Bool := false
  fill : Fill := .zero
deriving DecidableEq, Repr

namespace Settings

/-- The names of the fields, in order. -/
def fieldNames : List String :=
  ["mem_size", "error_level", "cycle_limit", "trace", "profile", "metrics", "fill"]

def levelOfName? : String → Option ErrorLevel
  | "none" => some .none
  | "memory" => some .memory
  | "full" => some .full
  | _ => none

def levelOf? (value : Json.Value) : Option ErrorLevel := do
  levelOfName? (← value.unitVariant?)

/-- Reads a number of 64 bits. -/
def word64Of? (value : Json.Value) : Option Nat :=
  value.natural? bound64

def cyclesOf? (value : Json.Value) : Option UInt64 :=
  (word64Of? value).map UInt64.ofNat

def fillOf? (value : Json.Value) : Option Fill := do
  match ← value.variant? with
  | ("zero", none) => some .zero
  | ("zero", some .null) => some .zero
  | ("random", some record) =>
    match ← record.record? ["seed"] with
    | [some seed] => return .random (UInt64.ofNat (← word64Of? seed))
    | _ => none
  | _ => none

/-- Reads a field with a default for the case that it is missing. -/
def fieldOr {α : Type} (default : α) (read : Json.Value → Option α) :
    Option Json.Value → Option α
  | none => some default
  | some value => read value

def ofValue? (value : Json.Value) : Option Settings := do
  match ← value.record? fieldNames with
  | [memSize, level, cycleLimit, trace, profile, metrics, fill] =>
    let defaults : Settings := {}
    return {
      memSize := Memory.clampSize (← fieldOr defaults.memSize word64Of? memSize)
      level := ← fieldOr defaults.level levelOf? level
      cycleLimit := ← fieldOr defaults.cycleLimit cyclesOf? cycleLimit
      trace := ← fieldOr defaults.trace Json.Value.bool? trace
      profile := ← fieldOr defaults.profile Json.Value.bool? profile
      metrics := ← fieldOr defaults.metrics Json.Value.bool? metrics
      fill := ← fieldOr defaults.fill fillOf? fill }
  | _ => none

def parse? (text : String) : Option Settings := do
  ofValue? (← Json.parse? text)

def fillDocument : Fill → Json.Document
  | .zero => .text "zero"
  | .random seed => .object [("random", .object [("seed", .natural seed.toNat)])]

def document (settings : Settings) : Json.Document :=
  .object
    [("mem_size", .natural settings.memSize),
      ("error_level", .text settings.level.name),
      ("cycle_limit", .natural settings.cycleLimit.toNat),
      ("trace", .bool settings.trace),
      ("profile", .bool settings.profile),
      ("metrics", .bool settings.metrics),
      ("fill", fillDocument settings.fill)]

end Settings

end Mos6502
