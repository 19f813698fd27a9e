import Mos6502.World.Basic
import Mos6502.Settings
import Mos6502.Profile.File
import Mos6502.Text.Lines

/-!
Setting up a world: a machine from settings, labels from label files, and the switching of instruments.
-/

namespace Mos6502

/-- Reads a profile that is to cover `size` addresses. -/
def Profile.decodeFor (size : Nat) (bytes : List UInt8) : Except ProfileError Profile := do
  let profile ← Profile.decode bytes
  if profile.size = size then return profile else throw (.sizeMismatch size profile.size)

namespace World

variable {σ : Type}

/-- Logs an event a number of times. -/
def logTimes (entry : LogEntry) : Nat → World σ → World σ
  | 0, w => w
  | count + 1, w => (w.log entry).logTimes entry count

/-- Registers the counters, unless that was done before, and starts to keep them. -/
def enableMetrics (w : World σ) : World σ :=
  let (metrics, refused) := w.metrics.install
  let w := { w with metrics, instruments := { w.instruments with metered := true } }
  w.logTimes .registrationRefused refused

/-- Starts a profile, unless there is one. -/
def enableProfile (w : World σ) : World σ :=
  match w.instruments.profile with
  | some _ => w
  | none =>
    let profile := Profile.new w.machine.mem.size
    { w with instruments := { w.instruments with profile := some profile } }

/-- Continues profiling into a profile read from bytes, which has to cover the memory exactly. -/
def loadProfile (bytes : List UInt8) (w : World σ) : Except ProfileError Unit × World σ :=
  match Profile.decodeFor w.machine.mem.size bytes with
  | .error error => (.error error, w)
  | .ok profile =>
    (.ok (), { w with instruments := { w.instruments with profile := some profile } })

/-- Directs the trace to a sink, or ends it. -/
def setSink (sink : Option TraceSink) (w : World σ) : World σ :=
  { w with instruments := { w.instruments with sink } }

/-- Names an address. -/
def setLabel (addr : UInt16) (name : String) (w : World σ) : World σ :=
  { w with instruments := { w.instruments with labels := w.instruments.labels.insert addr name } }

/-- Loads the lines of a label file from line `number` on, after `count` entries. Malformed lines and lines
of other pages are logged; a line that is no text ends the loading. The result is the number of entries. -/
def loadLabelLines (number count : Nat) : List (List UInt8) → World σ → Except String Nat × World σ
  | [], w => (.ok count, w)
  | bytes :: rest, w =>
    match Text.decodeUtf8? bytes with
    | none => (.error Text.malformedUtf8, w)
    | some line =>
      match LabelLine.parse line with
      | .ok .blank => w.loadLabelLines (number + 1) count rest
      | .ok (.entry addr name) =>
        (w.setLabel addr name).loadLabelLines (number + 1) (count + 1) rest
      | .ok (.otherPage page name) =>
        (w.log (.labelPageSkipped page name)).loadLabelLines (number + 1) count rest
      | .error error =>
        (w.log (.labelLineRejected number error)).loadLabelLines (number + 1) count rest

/-- Loads a label file. -/
def loadLabels (bytes : List UInt8) (w : World σ) : Except String Nat × World σ :=
  w.loadLabelLines 1 0 (Text.splitLines bytes)

/-- A world with undeclared memory and the given settings. -/
def ofSettings (settings : Settings) (metrics : Metrics) (host : σ) : World σ :=
  let w : World σ :=
    { machine :=
        { mem := Memory.new settings.memSize settings.fill
          limit := settings.cycleLimit
          level := settings.level }
      instruments := { sink := if settings.trace then some {} else none }
      metrics
      host }
  let w := if settings.profile then w.enableProfile else w
  if settings.metrics then w.enableMetrics else w

end World

end Mos6502
