/-!
JSON values as the readers of this library see them, and the ways in which records and variants are taken
from them. Only what a reader uses has to make sense: a number that is no natural number and a string with
a broken escape stand in the value without content, and fail where a reader asks for it.
-/

namespace Mos6502.Json

/-- A JSON value. Members keep their order and may repeat. -/
inductive Value where
  | null
  | bool (value : Bool)
  | number (value : Option Nat)
  | string (value : Option String)
  | array (items : List Value)
  | object (members : List (Option String × Value))

namespace Value

/-- A natural number below a bound. -/
def natural? (bound : Nat) : Value → Option Nat
  | number (some value) => if value < bound then some value else none
  | _ => none

/-- A truth value. -/
def bool? : Value → Option Bool
  | bool value => some value
  | _ => none

/-- A text. -/
def text? : Value → Option String
  | string value => value
  | _ => none

/-- The members of a record by name. A named member that repeats, or any name with a broken escape, makes
the record unreadable; members with other names are passed over. -/
def membersOf? (names : List String) :
    List (Option String × Value) → Option (List (String × Value))
  | [] => some []
  | (none, _) :: _ => none
  | (some name, value) :: rest => do
    let found ← membersOf? names rest
    if names.contains name then
      if (found.lookup name).isSome then none else some ((name, value) :: found)
    else some found

/-- The fields of a record in the order of `names`, `none` for a missing one. An object gives them by name,
an array by position. -/
def record? (names : List String) : Value → Option (List (Option Value))
  | object members => do
    let found ← membersOf? names members
    return names.map fun name => found.lookup name
  | array items =>
    if items.length ≤ names.length then
      some (items.map some ++ List.replicate (names.length - items.length) none)
    else none
  | _ => none

/-- The name of a variant and what it holds: a bare name, or an object with one member. -/
def variant? : Value → Option (String × Option Value)
  | string (some name) => some (name, none)
  | object [(some name, value)] => some (name, some value)
  | _ => none

/-- The name of a variant that holds nothing. -/
def unitVariant? (value : Value) : Option String :=
  match value.variant? with
  | some (name, none) => some name
  | some (name, some null) => some name
  | _ => none

end Value

end Mos6502.Json
