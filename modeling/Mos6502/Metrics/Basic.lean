/-!
Counters of simulated work and the registry that decides which of them are exposed. A registry holds
collectors by name; a second collector of one name is refused.
-/

namespace Mos6502

/-- Counts by label values, in order of first use. -/
abbrev LabelledCounts := List (List String × UInt64)

/-- Adds one to the count of some label values. -/
def LabelledCounts.increment (labels : List String) : LabelledCounts → LabelledCounts
  | [] => [(labels, 1)]
  | (found, count) :: rest =>
    if found = labels then (found, count + 1) :: rest
    else (found, count) :: LabelledCounts.increment labels rest

/-- What can be registered: the four collectors of the simulator, another single counter with the name and
help text of the cycle counter, and a collector whose family has no name. -/
inductive Collector where
  | instructions
  | cycles
  | faults
  | callbacks
  | foreignCycles (value : UInt64)
  | nameless
deriving DecidableEq, Repr

/-- The family name of a collector. -/
def Collector.name : Collector → String
  | .instructions => "sim_instructions_total"
  | .cycles => "sim_cycles_total"
  | .faults => "sim_faults_total"
  | .callbacks => "sim_callbacks_total"
  | .foreignCycles _ => "sim_cycles_total"
  | .nameless => ""

/-- The help text of a collector. -/
def Collector.help : Collector → String
  | .instructions => "Total number of instructions executed by mnemonic"
  | .cycles => "Total number of simulated CPU cycles"
  | .faults => "Errors raised during execution by kind"
  | .callbacks => "Memory-mapped callback invocations by kind"
  | .foreignCycles _ => "Total number of simulated CPU cycles"
  | .nameless => ""

/-- The label names of a collector, in alphabetical order. -/
def Collector.labelNames : Collector → List String
  | .instructions => ["mnemonic"]
  | .faults => ["fatal", "kind"]
  | .callbacks => ["kind"]
  | .cycles | .foreignCycles _ | .nameless => []

/-- The counters, the registered collectors, and whether the simulator has registered its own. -/
structure Metrics where
  instructions : LabelledCounts := []
  cycles : UInt64 := 0
  faults : LabelledCounts := []
  callbacks : LabelledCounts := []
  registry : List Collector := []
  installed : Bool := false
deriving DecidableEq, Repr

namespace Metrics

/-- Counts an instruction. -/
def countInstruction (metrics : Metrics) (mnemonic : String) : Metrics :=
  { metrics with instructions := metrics.instructions.increment [mnemonic] }

/-- Counts cycles. -/
def countCycles (metrics : Metrics) (cycles : UInt64) : Metrics :=
  { metrics with cycles := metrics.cycles + cycles }

/-- Counts a fault; the label values stand in the order of the label names. -/
def countFault (metrics : Metrics) (kind : String) (fatal : Bool) : Metrics :=
  { metrics with faults := metrics.faults.increment [if fatal then "true" else "false", kind] }

/-- Counts the invocation of a hook. -/
def countCallback (metrics : Metrics) (kind : String) : Metrics :=
  { metrics with callbacks := metrics.callbacks.increment [kind] }

/-- Adds a collector unless its name is taken. -/
def register? (metrics : Metrics) (collector : Collector) : Option Metrics :=
  if metrics.registry.any (·.name == collector.name) then none
  else some { metrics with registry := metrics.registry ++ [collector] }

/-- Registers collectors one after the other; the second component counts those refused. -/
def registerAll : List Collector → Metrics → Metrics × Nat
  | [], metrics => (metrics, 0)
  | collector :: rest, metrics =>
    match metrics.register? collector with
    | some metrics => registerAll rest metrics
    | none =>
      let (metrics, refused) := registerAll rest metrics
      (metrics, refused + 1)

/-- Registers the collectors of the simulator, the first time only; counts those refused. -/
def install (metrics : Metrics) : Metrics × Nat :=
  if metrics.installed then (metrics, 0)
  else registerAll [.instructions, .cycles, .faults, .callbacks] { metrics with installed := true }

/-- The samples of a collector: label values and count. -/
def samples (metrics : Metrics) : Collector → LabelledCounts
  | .instructions => metrics.instructions
  | .cycles => [([], metrics.cycles)]
  | .faults => metrics.faults
  | .callbacks => metrics.callbacks
  | .foreignCycles value => [([], value)]
  | .nameless => [([], 0)]

/-- The same registry with all counters at zero. -/
def reset (metrics : Metrics) : Metrics :=
  { registry := metrics.registry, installed := metrics.installed }

end Metrics

end Mos6502
