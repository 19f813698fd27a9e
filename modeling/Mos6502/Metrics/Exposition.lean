import Mos6502.Metrics.Basic
import Mos6502.Decimal.Shortest

/-!
Text exposition of the registered counters: families in the order of their names, samples in the order of
their label values, families without samples left out. A family without a name stops the exposition.
-/

namespace Mos6502.Metrics

/-- A character of a label value in the exposition. -/
def escapeChar (c : Char) : List Char :=
  if c = '\\' then ['\\', '\\']
  else if c = '"' then ['\\', '"']
  else if c = '\n' then ['\\', 'n']
  else [c]

/-- A label value in the exposition. -/
def escape (value : String) : String :=
  String.ofList (value.toList.flatMap escapeChar)

/-- The labels of a sample in braces, nothing if there are none. -/
def labelsText (names values : List String) : String :=
  match names.zip values with
  | [] => ""
  | labels =>
    "\x7b" ++ ",".intercalate (labels.map fun (name, value) => name ++ "=\"" ++ escape value ++ "\"")
      ++ "\x7d"

/-- The line of one sample. -/
def sampleText (collector : Collector) (sample : List String × UInt64) : String :=
  collector.name ++ labelsText collector.labelNames sample.1 ++ " "
    ++ Decimal.counterText sample.2.toNat ++ "\n"

/-- Whether label values come no later than others. -/
def labelsOrdered : List String → List String → Bool
  | [], _ => true
  | _ :: _, [] => false
  | l :: left, r :: right => l < r || (l == r && labelsOrdered left right)

/-- The lines of one family. -/
def familyText (metrics : Metrics) (collector : Collector) : String :=
  let samples := (metrics.samples collector).mergeSort fun l r => labelsOrdered l.1 r.1
  "# HELP " ++ collector.name ++ " " ++ collector.help ++ "\n"
    ++ "# TYPE " ++ collector.name ++ " counter\n"
    ++ String.join (samples.map (sampleText collector))

/-- The collectors with samples, in the order of their names. -/
def exposed (metrics : Metrics) : List Collector :=
  (metrics.registry.filter fun collector => !(metrics.samples collector).isEmpty).mergeSort
    fun l r => l.name < r.name || l.name == r.name

/-- The text of families up to the first without a name; the flag says whether one was met. -/
def familiesText (metrics : Metrics) : List Collector → String × Bool
  | [] => ("", false)
  | collector :: rest =>
    if collector.name.isEmpty then ("", true)
    else
      let (text, failed) := familiesText metrics rest
      (familyText metrics collector ++ text, failed)

/-- The exposition of everything registered, and whether it met a family without a name. -/
def render (metrics : Metrics) : String × Bool :=
  familiesText metrics metrics.exposed

end Mos6502.Metrics
