import Mos6502.CommandLine.Console
import Mos6502.CommandLine.Help
import Mos6502.CommandLine.Image
import Mos6502.CommandLine.Options
import Mos6502.Execution.Run
import Mos6502.Metrics.Exposition
import Mos6502.Profile.Report

/-!
The program of the command line: it loads an image and whatever else the options name, calls the entry point
or lists instructions from there, and shows what the options ask for.
-/

namespace Mos6502.CommandLine

/-- How the program ends. -/
inductive ExitStatus where
  | success
  | failure
  | usage
deriving DecidableEq, Repr

/-- The number that stands for a status. -/
def ExitStatus.code : ExitStatus → Nat
  | .success => 0
  | .failure => 1
  | .usage => 2

/-- What keeps a run from its end. -/
inductive Failure where
  | unreadableSettings (cause : String)
  | malformedSettings
  | file (path cause : String)
  | image (path : String) (error : ImageError)
  | profile (path : String) (error : ProfileError)
deriving DecidableEq, Repr

def Failure.message : Failure → String
  | .unreadableSettings cause => "cannot read config: " ++ cause
  | .malformedSettings => "invalid config: these are no settings in JSON"
  | .file path cause => path ++ ": " ++ cause
  | .image path error => path ++ ": " ++ error.message
  | .profile path error => path ++ ": " ++ error.message

/-- A program that may fail. -/
abbrev Run := ExceptT Failure Console

/-- The host of the command line, whose memory has no hooks. -/
def hooklessHost : Host Unit :=
  ⟨fun _ _ _ w => (.ok 0, w)⟩

def Options.override (options : Options) (settings : Settings) : Settings :=
  { settings with
    level := options.level.getD settings.level
    cycleLimit := options.cycleLimit.getD settings.cycleLimit
    trace := settings.trace || options.trace
    metrics := settings.metrics || options.metrics
    profile := settings.profile || options.profileOut.isSome || options.profileIn.isSome
      || options.report.isSome }

/-- Settings from the bytes of a file. -/
def decodeSettings (bytes : List UInt8) : Except Failure Settings :=
  match Text.decodeUtf8? bytes with
  | none => .error (.unreadableSettings Text.malformedUtf8)
  | some text =>
    match Settings.parse? text with
    | none => .error .malformedSettings
    | some settings => .ok settings

def readSettings (options : Options) : Run Settings := do
  match options.config with
  | none => return {}
  | some path =>
    match ← Console.read path with
    | .error error => throw (.unreadableSettings error.message)
    | .ok bytes => decodeSettings bytes

def readImage (options : Options) : Run Image := do
  match ← Console.read options.image with
  | .error error => throw (.file options.image error.message)
  | .ok bytes => return { origin := options.origin, bytes, rom := options.rom }

/-- Loads the label file, if there is one. -/
def readLabels (options : Options) (w : World Unit) : Run (World Unit) := do
  match options.labels with
  | none => return w
  | some path =>
    match ← Console.read path with
    | .error error => throw (.file path error.message)
    | .ok bytes =>
      match w.loadLabels bytes with
      | (.ok _, w) => return w
      | (.error cause, _) => throw (.file path cause)

/-- Loads the profile to continue, if there is one. -/
def readProfile (options : Options) (w : World Unit) : Run (World Unit) := do
  match options.profileIn with
  | none => return w
  | some path =>
    match ← Console.read path with
    | .error error => throw (.profile path (.unreadable error.message))
    | .ok bytes =>
      match w.loadProfile bytes with
      | (.ok (), w) => return w
      | (.error error, _) => throw (.profile path error)

/-- The world that an image is run in. -/
def loadWorld (settings : Settings) (path : String) (image : Image) :
    Except Failure (World Unit) :=
  match (World.ofSettings settings {} ()).loadImage image settings.fill with
  | (.ok (), w) => .ok w
  | (.error error, _) => .error (.image path error)

def callEntry (entry : UInt16) (w : World Unit) : Outcome × World Unit :=
  w.call hooklessHost windowBound entry

/-- Shows what a call left behind: the trace, the registers and the cycles. -/
def showMachine (w : World Unit) : Console Unit := do
  Console.complainLines w.journal.trace.toList
  Console.print w.machine.regs.text
  Console.print ("cycles: " ++ Text.decimal w.machine.cycles.toNat)

/-- Saves the profile and shows a report on it, as far as the options ask for it. -/
def showProfile (options : Options) (w : World Unit) : Run Unit := do
  if let some profile := w.instruments.profile then
    if let some path := options.profileOut then
      if let .error error ← Console.write path profile.encode then
        throw (.profile path (.unreadable error.message))
    if let some top := options.report then
      let report := profile.report w.instruments.labels top
      Console.print ((report.document (← Console.now)).pretty 0)

def showMetrics (w : World Unit) : Console Unit :=
  Console.complainLines (w.metrics.render.1.splitOn "\n").dropLast

def showOutcome : Outcome → Console ExitStatus
  | .completed => return .success
  | .stopped fault => do
    Console.complain (programName ++ ": stopped: " ++ fault.text)
    return .failure
  | .unfinished => return .failure

/-- Runs an image, or lists it. -/
def runImage (options : Options) : Run ExitStatus := do
  let settings := options.override (← readSettings options)
  let image ← readImage options
  let w ← readLabels options (← loadWorld settings options.image image)
  let entry := options.entry.getD options.origin
  match options.disasm with
  | some count =>
    Console.printLines
      ((disassemble w.machine.mem w.instruments.labels entry count).map (·.line))
    return .success
  | none =>
    let (outcome, w) := callEntry entry (← readProfile options w)
    showMachine w
    showProfile options w
    if settings.metrics then showMetrics w
    showOutcome outcome

/-- The program for given arguments. -/
def program (arguments : List String) : Console ExitStatus := do
  match Invocation.ofArguments arguments with
  | .showHelp =>
    Console.printLines helpLines
    return .success
  | .showVersion =>
    Console.print versionLine
    return .success
  | .misuse error =>
    Console.complainLines ["error: " ++ error.message, "", usageLine]
    return .usage
  | .run options =>
    match ← (runImage options).run with
    | .ok status => return status
    | .error failure =>
      Console.complain (programName ++ ": " ++ failure.message)
      return .failure

end Mos6502.CommandLine
