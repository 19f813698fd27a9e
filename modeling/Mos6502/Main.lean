import Mos6502.CommandLine.Program
import Std.Time.DateTime.Timestamp

/-!
The outer layer of the command line: answers the requests of the program from the file system, the standard
streams and the clock.
-/

namespace Mos6502.CommandLine

/-- Whether a number that the operating system gave is this one, with either sign. -/
def isCode (number code : UInt32) : Bool :=
  number == code || number == 0 - code

/-- The cause of a failed access to a file. -/
def fileError (error : IO.Error) : FileError :=
  match error with
  | .noFileOrDirectory _ _ _ | .noSuchThing _ _ _ => .missing
  | .inappropriateType _ number _ => if isCode number 20 then .notDirectory else .directory
  | .permissionDenied _ _ _ => .denied
  | .invalidArgument _ number _ =>
    if isCode number 36 then .nameTooLong else .other (toString error)
  | _ => .other (toString error)

/-- The outcome of an access to a file. -/
def attempt {α : Type} (access : IO α) : IO (Except FileError α) := do
  try
    return .ok (← access)
  catch error =>
    return .error (fileError error)

/-- The time of the clock. -/
def clock : IO Timestamp := do
  return Timestamp.ofNanoseconds (← Std.Time.Timestamp.now).toNanosecondsSinceUnixEpoch.toInt.toNat

/-- Answers a request. -/
def answer : (op : ConsoleOp) → IO op.Answer
  | .read path => attempt do return (← IO.FS.readBinFile path).toList
  | .write path bytes => attempt (IO.FS.writeBinFile path bytes.toByteArray)
  | .print line => IO.println line
  | .complain line => IO.eprintln line
  | .now => clock

/-- Runs a program. -/
def perform {α : Type} : Console α → IO α
  | .done result => return result
  | .step op next => do perform (next (← answer op))

end Mos6502.CommandLine

/-- The command line. -/
def main (arguments : List String) : IO UInt32 := do
  let status ← Mos6502.CommandLine.perform (Mos6502.CommandLine.program arguments)
  return UInt32.ofNat status.code
