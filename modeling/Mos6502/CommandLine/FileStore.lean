/-!
Files held as data. They lie in a tree of directories, of which a store knows those above its files and those
that every system has. A path is followed step by step; the first step that fails gives the error.
-/

namespace Mos6502

/-- Why a file cannot be read or written. -/
inductive FileError where
  | missing
  | directory
  | notDirectory
  | denied
  | nameTooLong
  | other (message : String)
deriving DecidableEq, Repr

def FileError.message : FileError → String
  | .missing => "No such file or directory (os error 2)"
  | .directory => "Is a directory (os error 21)"
  | .notDirectory => "Not a directory (os error 20)"
  | .denied => "Permission denied (os error 13)"
  | .nameTooLong => "File name too long (os error 36)"
  | .other message => message

abbrev FileName := List Char

def FileName.maxBytes : Nat := 255

def FileName.isTooLong (name : FileName) : Bool :=
  FileName.maxBytes < (String.ofList name).utf8ByteSize

/-- Where the names of a place start: at the root, or so many directories above the working directory. -/
inductive PlaceBase where
  | root
  | above (levels : Nat)
deriving DecidableEq, Repr

/-- A place in the tree of directories, by the names that lead down to it. -/
structure Place where
  base : PlaceBase
  names : List FileName := []
deriving DecidableEq, Repr

/-- One step of a path. -/
inductive PathStep where
  | stay
  | up
  | down (name : FileName)
deriving DecidableEq, Repr

/-- The step that a part of a path stands for. -/
def PathStep.ofPart (part : FileName) : PathStep :=
  if part == ['.'] then .stay else if part == ['.', '.'] then .up else .down part

namespace Place

def root : Place := ⟨.root, []⟩

def working : Place := ⟨.above 0, []⟩

/-- The place of a name in a directory. -/
def child (place : Place) (name : FileName) : Place :=
  { place with names := place.names ++ [name] }

/-- The directory around a place. The root has itself around it. -/
def parent : Place → Place
  | ⟨.root, []⟩ => root
  | ⟨.above levels, []⟩ => ⟨.above (levels + 1), []⟩
  | ⟨base, name :: names⟩ => ⟨base, (name :: names).dropLast⟩

def move (place : Place) : PathStep → Place
  | .stay => place
  | .up => place.parent
  | .down name => place.child name

/-- Whether a place has another one somewhere below it. -/
def isAbove (place other : Place) : Bool :=
  place.base == other.base && place.names.isPrefixOf other.names && place != other

/-- The null device, a file that keeps nothing. -/
def nullDevice : Place := (root.child ['d', 'e', 'v']).child ['n', 'u', 'l', 'l']

/-- Directories that every system has below its root. -/
def standing : List Place := [nullDevice.parent, root.child ['t', 'm', 'p']]

@[simp]
theorem parent_child (place : Place) (name : FileName) : (place.child name).parent = place := by
  obtain ⟨base, names⟩ := place
  cases names with
  | nil => cases base <;> rfl
  | cons first rest =>
    simp only [child, parent, List.cons_append]
    rw [← List.cons_append, List.dropLast_concat]

end Place

/-- A path: where it starts, its steps, and whether a slash ends it. -/
structure Path where
  start : Place
  steps : List PathStep
  slashed : Bool
deriving DecidableEq, Repr

namespace Path

def maxBytes : Nat := 4095

/-- Reads a path. Slashes in a row count as one. -/
def ofString (text : String) : Except FileError Path :=
  if text.isEmpty then .error .missing
  else if maxBytes < text.utf8ByteSize then .error .nameTooLong
  else .ok {
    start := if text.toList.head? == some '/' then .root else .working
    steps := ((text.toList.splitOn '/').filter (!·.isEmpty)).map .ofPart
    slashed := text.toList.getLast? == some '/' }

/-- The place that the steps of a path lead to. -/
def place (path : Path) : Place :=
  path.steps.foldl Place.move path.start

end Path

inductive FileNode where
  | directory
  | file (bytes : List UInt8)
deriving DecidableEq, Repr

structure FileStore where
  entries : List (Place × List UInt8) := []
deriving DecidableEq, Repr

namespace FileStore

/-- The store of files with given paths. -/
def ofList (files : List (String × List UInt8)) : FileStore :=
  ⟨files.filterMap fun (path, bytes) =>
    (Path.ofString path).toOption.map fun path => (path.place, bytes)⟩

def isDirectory (store : FileStore) (place : Place) : Bool :=
  place.names.isEmpty || Place.standing.contains place
    || store.entries.any fun entry => place.isAbove entry.1

/-- What is at a place, if there is anything. -/
def node? (store : FileStore) (place : Place) : Option FileNode :=
  if store.isDirectory place then some .directory
  else if place == .nullDevice then some (.file [])
  else (store.entries.find? (·.1 == place)).map fun entry => .file entry.2

/-- Puts a file at a place, over an older one. -/
def insert (store : FileStore) (place : Place) (bytes : List UInt8) : FileStore :=
  ⟨(place, bytes) :: store.entries.filter (·.1 != place)⟩

/-- What a directory has under a name. -/
def lookup (store : FileStore) (directory : Place) (name : FileName) :
    Except FileError (Option FileNode) :=
  if name.isTooLong then .error .nameTooLong else .ok (store.node? (directory.child name))

/-- The directory that a step from another one leads to. -/
def enter (store : FileStore) (directory : Place) (step : PathStep) : Except FileError Place := do
  if let .down name := step then
    match ← store.lookup directory name with
    | none => throw .missing
    | some (.file _) => throw .notDirectory
    | some .directory => pure ()
  return directory.move step

/-- The directory from which a path takes its last step. -/
def follow (store : FileStore) (path : Path) : Except FileError Place :=
  path.steps.dropLast.foldlM store.enter path.start

/-- Reads a file. Only a directory may have a slash after it. -/
def read (store : FileStore) (text : String) : Except FileError (List UInt8) := do
  let path ← Path.ofString text
  let directory ← store.follow path
  match path.steps.getLast? with
  | some (.down name) =>
    match ← store.lookup directory name with
    | none => throw .missing
    | some .directory => throw .directory
    | some (.file bytes) => if path.slashed then throw .notDirectory else return bytes
  | _ => throw .directory

/-- The place that a file can be written to. A slash at the end asks for a directory. -/
def destination (store : FileStore) (text : String) : Except FileError Place := do
  let path ← Path.ofString text
  let directory ← store.follow path
  match path.steps.getLast? with
  | some (.down name) =>
    if path.slashed then throw .directory
    match ← store.lookup directory name with
    | some .directory => throw .directory
    | _ => return directory.child name
  | _ => throw .directory

/-- Writes a file, over an older one at its place. -/
def write (store : FileStore) (text : String) (bytes : List UInt8) :
    Except FileError Unit × FileStore :=
  match store.destination text with
  | .error error => (.error error, store)
  | .ok place => (.ok (), store.insert place bytes)

end FileStore

end Mos6502
