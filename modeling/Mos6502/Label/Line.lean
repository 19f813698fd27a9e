import Mos6502.Text.Blank
import Mos6502.Text.Numeral
import Mos6502.Word

/-!
Lines of label files. An entry is written `al 0600 .name` or `0 0600 name`, where the first field of the
second form is a memory page and only page zero is used. Blank lines and comments hold nothing.
-/

namespace Mos6502

/-- What a well-formed line holds. -/
inductive LabelLine where
  | blank
  | entry (addr : UInt16) (name : String)
  | otherPage (page : Nat) (name : String)
deriving DecidableEq, Repr

/-- Why a line is malformed. -/
inductive LabelLineError where
  | fieldCount (found : Nat)
  | invalidAddress (field : String)
  | missingDot (field : String)
  | emptyName
  | invalidPage (field : String)
deriving DecidableEq, Repr

def LabelLineError.message : LabelLineError → String
  | .fieldCount found => "expected 3 fields, found " ++ Text.decimal found
  | .invalidAddress field => "invalid address '" ++ field ++ "'"
  | .missingDot field => "label '" ++ field ++ "' does not start with '.'"
  | .emptyName => "empty label name"
  | .invalidPage field => "invalid page '" ++ field ++ "'"

namespace LabelLine

/-- Reads a hexadecimal field of at most 32 bits behind any number of dollar signs and one `C:`. -/
def readHex? (field : List Char) : Option Nat :=
  let digits := match field.dropWhile (· == '$') with
    | 'C' :: ':' :: rest => rest
    | rest => rest
  Text.readNumeral? 16 bound32 digits

/-- Reads an address field. -/
def readAddress (field : List Char) : Except LabelLineError UInt16 :=
  match readHex? field with
  | some value =>
    if value ≤ 0xFFFF then .ok (UInt16.ofNat value)
    else .error (.invalidAddress (String.ofList field))
  | none => .error (.invalidAddress (String.ofList field))

/-- Reads the three fields of an entry. -/
def ofFields (first second third : List Char) : Except LabelLineError LabelLine :=
  if first = ['a', 'l'] then do
    let addr ← readAddress second
    match third with
    | '.' :: name => if name.isEmpty then .error .emptyName else .ok (.entry addr (String.ofList name))
    | _ => .error (.missingDot (String.ofList third))
  else
    match readHex? first with
    | none => .error (.invalidPage (String.ofList first))
    | some page => do
      let addr ← readAddress second
      if page = 0 then .ok (.entry addr (String.ofList third))
      else .ok (.otherPage page (String.ofList third))

def parse (line : String) : Except LabelLineError LabelLine :=
  match Text.trim line.toList with
  | [] => .ok .blank
  | '#' :: _ => .ok .blank
  | ';' :: _ => .ok .blank
  | text =>
    match Text.fields text with
    | [first, second, third] => ofFields first second third
    | fields => .error (.fieldCount fields.length)

end LabelLine

end Mos6502
