import Mos6502.Fault
import Mos6502.Text.Numeral
import Mos6502.Word

/-!
The options of the command line. Arguments become items: switches, options with a value, the path of the image.
The items are taken from left to right, and the first one that is malformed, or that asks for help or for the
version, decides what happens.
-/

namespace Mos6502.CommandLine

/-- Options without a value. -/
inductive Switch where
  | rom
  | trace
  | metrics
deriving DecidableEq, Repr

/-- Options with a value. -/
inductive Setting where
  | origin
  | entry
  | labels
  | config
  | errorLevel
  | cycleLimit
  | profileOut
  | profileIn
  | report
  | disasm
deriving DecidableEq, Repr

/-- What the name of an option stands for. -/
inductive OptionName where
  | switch (switch : Switch)
  | setting (setting : Setting)
  | help
  | version
deriving DecidableEq, Repr

/-- The long names of the options. -/
def longNames : List (String × OptionName) :=
  [("origin", .setting .origin), ("entry", .setting .entry), ("rom", .switch .rom),
    ("labels", .setting .labels), ("config", .setting .config), ("trace", .switch .trace),
    ("error-level", .setting .errorLevel), ("cycle-limit", .setting .cycleLimit),
    ("profile-out", .setting .profileOut), ("profile-in", .setting .profileIn),
    ("report", .setting .report), ("metrics", .switch .metrics), ("disasm", .setting .disasm),
    ("help", .help), ("version", .version)]

/-- The one-letter names of the options. -/
def shortNames : List (Char × OptionName) :=
  [('o', .setting .origin), ('e', .setting .entry), ('l', .setting .labels), ('c', .setting .config),
    ('t', .switch .trace), ('h', .help), ('V', .version)]

/-- The long name of an option as it is written. -/
def OptionName.text (name : OptionName) : String :=
  "--" ++ ((longNames.find? (·.2 == name)).map (·.1)).getD ""

/-- Why a command line is malformed. -/
inductive UsageError where
  | unknownOption (text : String)
  | missingValue (name : OptionName)
  | unwantedValue (name : OptionName)
  | malformedValue (setting : Setting) (value : String)
  | repeated (name : OptionName)
  | missingImage
  | secondImage (text : String)
deriving DecidableEq, Repr

def UsageError.message : UsageError → String
  | .unknownOption text => "unexpected argument '" ++ text ++ "' found"
  | .missingValue name => "a value is required for '" ++ name.text ++ "' but none was supplied"
  | .unwantedValue name => "'" ++ name.text ++ "' takes no value"
  | .malformedValue setting value =>
    "invalid value '" ++ value ++ "' for '" ++ (OptionName.setting setting).text ++ "'"
  | .repeated name => "the argument '" ++ name.text ++ "' cannot be used multiple times"
  | .missingImage => "the path of the image is missing"
  | .secondImage text => "unexpected argument '" ++ text ++ "' found"

inductive Item where
  | switch (switch : Switch)
  | setting (setting : Setting) (value : String)
  | image (path : String)
  | help
  | version
  | malformed (error : UsageError)
deriving DecidableEq, Repr

/-- The item for a name without a value; for a name that needs one the next argument has to give it. -/
def OptionName.bare : OptionName → Except Setting Item
  | .switch which => .ok (.switch which)
  | .setting which => .error which
  | .help => .ok .help
  | .version => .ok .version

/-- The items of a cluster of one-letter names, and the option whose value the next argument has to give, if
there is one. Behind the letter of an option with a value the rest is that value, with or without an equals
sign. -/
def clusterItems : List Char → List Item × Option Setting
  | [] => ([], none)
  | letter :: rest =>
    match shortNames.lookup letter with
    | none => ([.malformed (.unknownOption (String.ofList ['-', letter]))], none)
    | some name =>
      match name.bare, rest with
      | .ok item, rest =>
        let (items, unfinished) := clusterItems rest
        (item :: items, unfinished)
      | .error setting, [] => ([], some setting)
      | .error setting, '=' :: value => ([.setting setting (String.ofList value)], none)
      | .error setting, value => ([.setting setting (String.ofList value)], none)

/-- The item of a long option, or the option whose value the next argument has to give. -/
def longItem (text : List Char) : Except Setting Item :=
  let name := String.ofList (text.takeWhile (· != '='))
  let value := text.dropWhile (· != '=')
  match longNames.lookup name, value with
  | none, _ => .ok (.malformed (.unknownOption ("--" ++ name)))
  | some name, [] => name.bare
  | some (.setting setting), _ :: value => .ok (.setting setting (String.ofList value))
  | some name, _ :: _ => .ok (.malformed (.unwantedValue name))

/-- What one argument holds by itself. -/
inductive Argument where
  /-- All arguments behind this one are paths. -/
  | endOfOptions
  | path (path : String)
  /-- Items, and the option whose value is to come. -/
  | options (items : List Item) (unfinished : Option Setting)

/-- Classifies an argument. A single dash is a path. -/
def Argument.ofText (text : String) : Argument :=
  match text.toList with
  | ['-', '-'] => .endOfOptions
  | '-' :: '-' :: name =>
    match longItem name with
    | .ok item => .options [item] none
    | .error setting => .options [] (some setting)
  | '-' :: letter :: rest =>
    let (items, unfinished) := clusterItems (letter :: rest)
    .options items unfinished
  | _ => .path text

/-- The items of a command line. -/
def scan : List String → List Item
  | [] => []
  | text :: rest =>
    match Argument.ofText text with
    | .endOfOptions => rest.map .image
    | .path path => .image path :: scan rest
    | .options items none => items ++ scan rest
    | .options items (some setting) =>
      match rest with
      | [] => items ++ [.malformed (.missingValue (.setting setting))]
      | value :: rest =>
        match Argument.ofText value with
        | .path value => items ++ .setting setting value :: scan rest
        | _ => items ++ [.malformed (.missingValue (.setting setting))]

/-- What a run is to do. -/
structure Options where
  image : String
  origin : UInt16 := 0x0600
  /-- The first address to execute, the origin if there is none. -/
  entry : Option UInt16 := none
  rom : Bool := false
  labels : Option String := none
  config : Option String := none
  trace : Bool := false
  level : Option ErrorLevel := none
  cycleLimit : Option UInt64 := none
  profileOut : Option String := none
  profileIn : Option String := none
  report : Option Nat := none
  metrics : Bool := false
  disasm : Option Nat := none
deriving DecidableEq, Repr

/-- Options of which some are not given yet. -/
structure Draft where
  image : Option String := none
  switches : List Switch := []
  settings : List Setting := []
  /-- The options so far, without a path. -/
  options : Options := { image := "" }
deriving DecidableEq, Repr

/-- Reads an address: hexadecimal digits behind any number of dollar signs and then of `0x`. -/
def readAddress? (value : String) : Option UInt16 :=
  let rec skipMarks : List Char → List Char
    | '0' :: 'x' :: rest => skipMarks rest
    | rest => rest
  (Text.readNumeral? 16 bound16 (skipMarks (value.toList.dropWhile (· == '$')))).map UInt16.ofNat

/-- Reads a decimal number of 64 bits. -/
def readCount? (value : String) : Option Nat :=
  Text.readNumeral? 10 bound64 value.toList

/-- Reads a path, which cannot be empty. -/
def readPath? (value : String) : Option String :=
  if value.isEmpty then none else some value

def Options.withSwitch (options : Options) : Switch → Options
  | .rom => { options with rom := true }
  | .trace => { options with trace := true }
  | .metrics => { options with metrics := true }

/-- Options with one more value, if the value makes sense. -/
def Options.withSetting? (options : Options) (setting : Setting) (value : String) :
    Option Options :=
  match setting with
  | .origin => (readAddress? value).map fun addr => { options with origin := addr }
  | .entry => (readAddress? value).map fun addr => { options with entry := some addr }
  | .labels => (readPath? value).map fun path => { options with labels := some path }
  | .config => (readPath? value).map fun path => { options with config := some path }
  | .errorLevel =>
    (ErrorLevel.parse value).toOption.map fun level => { options with level := some level }
  | .cycleLimit =>
    (readCount? value).map fun limit => { options with cycleLimit := some (UInt64.ofNat limit) }
  | .profileOut => (readPath? value).map fun path => { options with profileOut := some path }
  | .profileIn => (readPath? value).map fun path => { options with profileIn := some path }
  | .report => (readCount? value).map fun top => { options with report := some top }
  | .disasm => (readCount? value).map fun count => { options with disasm := some count }

/-- What a command line asks for. -/
inductive Invocation where
  | run (options : Options)
  | showHelp
  | showVersion
  | misuse (error : UsageError)
deriving DecidableEq, Repr

/-- Takes items from left to right. No switch and no option with a value may be given twice. -/
def Draft.complete (draft : Draft) : List Item → Invocation
  | [] =>
    match draft.image with
    | some image => .run { draft.options with image }
    | none => .misuse .missingImage
  | .help :: _ => .showHelp
  | .version :: _ => .showVersion
  | .malformed error :: _ => .misuse error
  | .image path :: rest =>
    match draft.image, readPath? path with
    | some _, _ => .misuse (.secondImage path)
    | none, some path => { draft with image := some path }.complete rest
    | none, none => .misuse .missingImage
  | .switch switch :: rest =>
    if draft.switches.contains switch then .misuse (.repeated (.switch switch))
    else
      { draft with
        switches := switch :: draft.switches
        options := draft.options.withSwitch switch }.complete rest
  | .setting setting value :: rest =>
    if draft.settings.contains setting then .misuse (.repeated (.setting setting))
    else
      match draft.options.withSetting? setting value with
      | none => .misuse (.malformedValue setting value)
      | some options =>
        { draft with settings := setting :: draft.settings, options }.complete rest

def Invocation.ofArguments (arguments : List String) : Invocation :=
  ({} : Draft).complete (scan arguments)

end Mos6502.CommandLine
