import Mos6502.Fault
import Mos6502.Label.Line

/-!
The journal: what a machine reports in words while it works, namely log entries and trace lines, each kind
in order of time.
-/

namespace Mos6502

/-- The events that are logged. -/
inductive LogEntry where
  | continuing (fault : Fault)
  | runStarted (addr : UInt16)
  | runStopped (cycles : UInt64) (fault : Fault)
  | labelLineRejected (number : Nat) (error : LabelLineError)
  | labelPageSkipped (page : Nat) (name : String)
  | restored (name id : String)
  | traceFailed (cause : String)
  | registrationRefused
  | expositionFailed
deriving DecidableEq, Repr

namespace LogEntry

/-- Whether an entry is a warning; the others are for debugging. -/
def isWarning : LogEntry → Bool
  | .continuing _ | .labelLineRejected _ _ | .traceFailed _ | .registrationRefused
  | .expositionFailed => true
  | _ => false

def message : LogEntry → String
  | .continuing fault => fault.text ++ " (continuing)"
  | .runStarted addr => "run from $" ++ Text.hex 4 addr.toNat
  | .runStopped cycles fault =>
    "stopped after " ++ Text.decimal cycles.toNat ++ " cycles: " ++ fault.text
  | .labelLineRejected number error =>
    "label file line " ++ Text.decimal number ++ ": " ++ error.message
  | .labelPageSkipped page name =>
    "skipping label '" ++ name ++ "' in page " ++ Text.hex 1 page
  | .restored name id => "restored snapshot '" ++ name ++ "' (" ++ id ++ ")"
  | .traceFailed cause => "trace output failed, disabling trace: " ++ cause
  | .registrationRefused =>
    "failed to register metric: Duplicate metrics collector registration attempted"
  | .expositionFailed => "failed to encode metrics"

/-- The entry as a line with its severity in front. -/
def line (entry : LogEntry) : String :=
  (if entry.isWarning then "WARN: " else "DEBUG: ") ++ entry.message

end LogEntry

/-- Log entries and trace lines. -/
structure Journal where
  log : Array LogEntry := #[]
  trace : Array String := #[]
deriving DecidableEq, Repr

/-- Appends a log entry. -/
def Journal.note (journal : Journal) (entry : LogEntry) : Journal :=
  { journal with log := journal.log.push entry }

/-- Appends a trace line. -/
def Journal.traceLine (journal : Journal) (line : String) : Journal :=
  { journal with trace := journal.trace.push line }

end Mos6502
