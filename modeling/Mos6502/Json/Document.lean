import Mos6502.Json.Value
import Mos6502.Text.Numeral

/-!
JSON documents that this library writes: their compact text, and a layout with one item per line, two spaces
of indentation and empty arrays and objects closed on the spot.
-/

namespace Mos6502.Json

/-- A document to be written. -/
inductive Document where
  | null
  | bool (value : Bool)
  | natural (value : Nat)
  | text (value : String)
  | array (items : List Document)
  | object (members : List (String × Document))

/-- Lower-case form of a code below 256 in two digits. -/
def escapeDigits (code : Nat) : List Char :=
  (Text.hexByte (UInt8.ofNat code)).toList

/-- A character inside a string. -/
def escapeChar (c : Char) : List Char :=
  if c = '"' then ['\\', '"']
  else if c = '\\' then ['\\', '\\']
  else if c = '\x08' then ['\\', 'b']
  else if c = '\x0c' then ['\\', 'f']
  else if c = '\n' then ['\\', 'n']
  else if c = '\r' then ['\\', 'r']
  else if c = '\t' then ['\\', 't']
  else if c.toNat < 0x20 then ['\\', 'u', '0', '0'] ++ escapeDigits c.toNat
  else [c]

/-- A string in quotes. -/
def quote (text : String) : String :=
  String.ofList ('"' :: text.toList.flatMap escapeChar ++ ['"'])

/-- A line break with the indentation of a depth. -/
def newline (depth : Nat) : String :=
  String.ofList ('\n' :: List.replicate (2 * depth) ' ')

namespace Document

mutual

/-- The text without any blanks. -/
def compact : Document → String
  | null => "null"
  | bool value => if value then "true" else "false"
  | natural value => Text.decimal value
  | text value => quote value
  | array items => "[" ++ compactItems items ++ "]"
  | object members => "\x7b" ++ compactMembers members ++ "\x7d"

/-- Items with commas between them. -/
def compactItems : List Document → String
  | [] => ""
  | [item] => item.compact
  | item :: rest => item.compact ++ "," ++ compactItems rest

/-- Members with commas between them. -/
def compactMembers : List (String × Document) → String
  | [] => ""
  | [(name, value)] => quote name ++ ":" ++ value.compact
  | (name, value) :: rest => quote name ++ ":" ++ value.compact ++ "," ++ compactMembers rest

end

mutual

/-- The text with one item per line, its lines after the first indented by `depth`. -/
def pretty (depth : Nat) : Document → String
  | null => "null"
  | bool value => if value then "true" else "false"
  | natural value => Text.decimal value
  | text value => quote value
  | array [] => "[]"
  | array (item :: rest) =>
    "[" ++ newline (depth + 1) ++ prettyItems (depth + 1) (item :: rest) ++ newline depth ++ "]"
  | object [] => "\x7b\x7d"
  | object (first :: rest) =>
    "\x7b" ++ newline (depth + 1) ++ prettyMembers (depth + 1) (first :: rest) ++ newline depth
      ++ "\x7d"

/-- Items on lines of their own. -/
def prettyItems (depth : Nat) : List Document → String
  | [] => ""
  | [item] => item.pretty depth
  | item :: rest => item.pretty depth ++ "," ++ newline depth ++ prettyItems depth rest

/-- Members on lines of their own. -/
def prettyMembers (depth : Nat) : List (String × Document) → String
  | [] => ""
  | [(name, value)] => quote name ++ ": " ++ value.pretty depth
  | (name, value) :: rest =>
    quote name ++ ": " ++ value.pretty depth ++ "," ++ newline depth ++ prettyMembers depth rest

end

end Document

end Mos6502.Json
