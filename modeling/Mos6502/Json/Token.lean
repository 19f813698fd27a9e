import Mos6502.Text.Numeral

/-!
Tokens of JSON text. A machine reads one character at a time and holds the token that is open; a token is
complete when a character comes that cannot continue it, or at the end.
-/

namespace Mos6502.Json

/-- The tokens. A number that is no natural number has no value; a string with an unpaired surrogate
escape has no text. -/
inductive Token where
  | beginObject
  | endObject
  | beginArray
  | endArray
  | colon
  | comma
  | null
  | true
  | false
  | number (value : Option Nat)
  | string (text : Option String)
deriving DecidableEq, Repr

namespace Token

/-- A piece of a string: a character, or the 16-bit unit of a numeric escape. -/
inductive Piece where
  | char (c : Char)
  | unit (code : Nat)
deriving DecidableEq, Repr

/-- The text that pieces spell after the characters of `text`, which stand last first. Units from the high
surrogates must be followed by one from the low surrogates, and these stand nowhere else. -/
def spell? (text : List Char) : List Piece → Option (List Char)
  | [] => some text.reverse
  | .char c :: rest => spell? (c :: text) rest
  | .unit code :: rest =>
    if code < 0xD800 ∨ 0xE000 ≤ code then spell? (Char.ofNat code :: text) rest
    else if 0xDC00 ≤ code then none
    else
      match rest with
      | .unit low :: rest =>
        if 0xDC00 ≤ low ∧ low < 0xE000 then
          spell? (Char.ofNat (0x10000 + (code - 0xD800) * 0x400 + (low - 0xDC00)) :: text) rest
        else none
      | _ => none

/-- How far a number has been read. -/
inductive NumberPhase where
  | sign
  | zero
  | integer
  | point
  | fraction
  | exponent
  | exponentSign
  | exponentDigits
deriving DecidableEq, Repr

/-- How far a string has been read. -/
inductive StringPhase where
  | plain
  | escape
  | code (left value : Nat)
deriving DecidableEq, Repr

/-- The open token. -/
inductive Mode where
  | idle
  /-- Inside a literal: the characters still to come, and the token. -/
  | word (rest : List Char) (token : Token)
  /-- Inside a number: the value of its integer digits, and whether it is negative. -/
  | number (phase : NumberPhase) (value : Nat) (negative : Bool)
  /-- Inside a string: its pieces so far, last first. -/
  | string (phase : StringPhase) (pieces : List Piece)
deriving DecidableEq, Repr

/-- The complete tokens, last first, and the open one. -/
structure Scan where
  tokens : List Token := []
  mode : Mode := .idle
deriving DecidableEq, Repr

/-- The characters that may stand between tokens. -/
def isSpace (c : Char) : Bool :=
  c = ' ' ∨ c = '\n' ∨ c = '\t' ∨ c = '\r'

/-- The character that a short escape stands for. -/
def shortEscape? : Char → Option Char
  | '"' => some '"'
  | '\\' => some '\\'
  | '/' => some '/'
  | 'b' => some '\x08'
  | 'f' => some '\x0c'
  | 'n' => some '\n'
  | 'r' => some '\r'
  | 't' => some '\t'
  | _ => none

/-- The value of a decimal digit. -/
def decimalDigit? (c : Char) : Option Nat :=
  if '0' ≤ c ∧ c ≤ '9' then some (c.toNat - 48) else none

/-- The value of a hexadecimal digit. -/
def hexDigit? (c : Char) : Option Nat :=
  (Text.digitValue? c).filter (· < 16)

/-- Begins a token. -/
def start? (tokens : List Token) (c : Char) : Option Scan :=
  if isSpace c then some { tokens }
  else
    match c with
    | '\x7b' => some { tokens := beginObject :: tokens }
    | '\x7d' => some { tokens := endObject :: tokens }
    | '[' => some { tokens := beginArray :: tokens }
    | ']' => some { tokens := endArray :: tokens }
    | ':' => some { tokens := colon :: tokens }
    | ',' => some { tokens := comma :: tokens }
    | '"' => some { tokens, mode := .string .plain [] }
    | '-' => some { tokens, mode := .number .sign 0 Bool.true }
    | 'n' => some { tokens, mode := .word ['u', 'l', 'l'] null }
    | 't' => some { tokens, mode := .word ['r', 'u', 'e'] true }
    | 'f' => some { tokens, mode := .word ['a', 'l', 's', 'e'] false }
    | '0' => some { tokens, mode := .number .zero 0 Bool.false }
    | _ => (decimalDigit? c).map fun d => { tokens, mode := .number .integer d Bool.false }

/-- The token of a number read up to a phase, if a number may end there. -/
def ofNumber? (phase : NumberPhase) (value : Nat) (negative : Bool) : Option Token :=
  match phase with
  | .zero | .integer => some (number (if negative then none else some value))
  | .fraction | .exponentDigits => some (number none)
  | .sign | .point | .exponent | .exponentSign => none

/-- The phase and value after one more character of a number; `none` if it cannot continue with it. -/
def continueNumber? (phase : NumberPhase) (value : Nat) (c : Char) : Option (NumberPhase × Nat) :=
  match phase, decimalDigit? c with
  | .sign, some d => some (if d = 0 then .zero else .integer, d)
  | .integer, some d => some (.integer, value * 10 + d)
  | .point, some _ | .fraction, some _ => some (.fraction, value)
  | .exponent, some _ | .exponentSign, some _ | .exponentDigits, some _ =>
    some (.exponentDigits, value)
  | .zero, none | .integer, none =>
    if c = '.' then some (.point, value)
    else if c = 'e' ∨ c = 'E' then some (.exponent, value)
    else none
  | .fraction, none => if c = 'e' ∨ c = 'E' then some (.exponent, value) else none
  | .exponent, none => if c = '+' ∨ c = '-' then some (.exponentSign, value) else none
  | _, _ => none

/-- Reads one character of a string. -/
def continueString? (tokens : List Token) (phase : StringPhase) (pieces : List Piece) (c : Char) :
    Option Scan :=
  match phase with
  | .plain =>
    if c = '"' then
      some { tokens := string ((spell? [] pieces.reverse).map String.ofList) :: tokens }
    else if c = '\\' then some { tokens, mode := .string .escape pieces }
    else if c.toNat < 0x20 then none
    else some { tokens, mode := .string .plain (.char c :: pieces) }
  | .escape =>
    if c = 'u' then some { tokens, mode := .string (.code 4 0) pieces }
    else (shortEscape? c).map fun e => { tokens, mode := .string .plain (.char e :: pieces) }
  | .code left value => do
    let d ← hexDigit? c
    let value := value * 16 + d
    if left ≤ 1 then some { tokens, mode := .string .plain (.unit value :: pieces) }
    else some { tokens, mode := .string (.code (left - 1) value) pieces }

/-- Reads one character. -/
def feed? (scan : Scan) (c : Char) : Option Scan :=
  match scan.mode with
  | .idle => start? scan.tokens c
  | .word [] token => start? (token :: scan.tokens) c
  | .word (expected :: rest) token =>
    if c = expected then
      if rest.isEmpty then some { tokens := token :: scan.tokens }
      else some { scan with mode := .word rest token }
    else none
  | .number phase value negative =>
    match continueNumber? phase value c with
    | some (phase, value) => some { scan with mode := .number phase value negative }
    | none => do
      let token ← ofNumber? phase value negative
      start? (token :: scan.tokens) c
  | .string phase pieces => continueString? scan.tokens phase pieces c

/-- The tokens at the end of the text. -/
def finish? (scan : Scan) : Option (List Token) :=
  match scan.mode with
  | .idle => some scan.tokens.reverse
  | .number phase value negative => do
    let token ← ofNumber? phase value negative
    return (token :: scan.tokens).reverse
  | _ => none

/-- The tokens of a text. -/
def scan? (text : List Char) : Option (List Token) := do
  finish? (← text.foldlM feed? {})

end Token

end Mos6502.Json
