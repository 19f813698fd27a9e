import Mos6502.Json.Token
import Mos6502.Json.Value

/-!
Reading of JSON text. The tokens drive a stack of open arrays and objects, so that nesting has no bound.
No comma may stand before a closing bracket, and only blanks may follow the value.
-/

namespace Mos6502.Json

/-- An open array or object: what it holds so far, last first. -/
inductive Frame where
  | array (items : List Value)
  | object (members : List (Option String × Value))
  /-- An object with the name of the member whose value is to come. -/
  | member (members : List (Option String × Value)) (name : Option String)

/-- What may come next. -/
inductive Expectation where
  | value
  /-- The first item of an array, or its end. -/
  | firstItem
  /-- The first name of an object, or its end. -/
  | firstName
  | name
  | colon
  /-- A comma or the end of the innermost array or object. -/
  | separator
deriving DecidableEq, Repr

/-- The state of reading: what is open and what may come next, or the finished value. -/
inductive Reading where
  | inside (frames : List Frame) (expected : Expectation)
  | finished (value : Value)

/-- Takes a complete value. -/
def acceptValue (value : Value) : List Frame → Option Reading
  | [] => some (.finished value)
  | .array items :: frames => some (.inside (.array (value :: items) :: frames) .separator)
  | .member members name :: frames =>
    some (.inside (.object ((name, value) :: members) :: frames) .separator)
  | .object _ :: _ => none

/-- Takes a token where a value may begin. -/
def beginValue (frames : List Frame) : Token → Option Reading
  | .beginObject => some (.inside (.object [] :: frames) .firstName)
  | .beginArray => some (.inside (.array [] :: frames) .firstItem)
  | .null => acceptValue .null frames
  | .true => acceptValue (.bool true) frames
  | .false => acceptValue (.bool false) frames
  | .number value => acceptValue (.number value) frames
  | .string text => acceptValue (.string text) frames
  | .endObject | .endArray | .colon | .comma => none

/-- Takes the name of a member. -/
def acceptName (frames : List Frame) (name : Option String) : Option Reading :=
  match frames with
  | .object members :: frames => some (.inside (.member members name :: frames) .colon)
  | _ => none

/-- Takes one token. -/
def Reading.feed? (reading : Reading) (token : Token) : Option Reading :=
  match reading with
  | .finished _ => none
  | .inside frames expected =>
    match expected, token, frames with
    | .firstItem, .endArray, .array _ :: frames => acceptValue (.array []) frames
    | .value, token, frames | .firstItem, token, frames => beginValue frames token
    | .firstName, .endObject, .object _ :: frames => acceptValue (.object []) frames
    | .firstName, .string name, frames | .name, .string name, frames => acceptName frames name
    | .colon, .colon, frames => some (.inside frames .value)
    | .separator, .comma, .array items :: frames =>
      some (.inside (.array items :: frames) .value)
    | .separator, .comma, .object members :: frames =>
      some (.inside (.object members :: frames) .name)
    | .separator, .endArray, .array items :: frames => acceptValue (.array items.reverse) frames
    | .separator, .endObject, .object members :: frames =>
      acceptValue (.object members.reverse) frames
    | _, _, _ => none

/-- Reads the value that tokens spell. -/
def ofTokens? (tokens : List Token) : Option Value := do
  match ← tokens.foldlM Reading.feed? (.inside [] .value) with
  | .finished value => some value
  | .inside _ _ => none

/-- Reads the value that a text spells. -/
def parse? (text : String) : Option Value := do
  ofTokens? (← Token.scan? text.toList)

end Mos6502.Json
