import Mos6502.Text.Blank
import Mos6502.Text.Numeral

/-!
Points in time as RFC 3339 text. Reading allows blanks around separators, a signed year, any offset from UTC
of less than a day and a leap second; writing gives UTC with zero, three, six or nine digits of a second.
-/

namespace Mos6502

/-- A point in time by its calendar fields in UTC. A leap second is second 60. -/
structure Timestamp where
  year : Int := 1970
  month : Nat := 1
  day : Nat := 1
  hour : Nat := 0
  minute : Nat := 0
  second : Nat := 0
  nanosecond : Nat := 0
deriving DecidableEq, Repr

namespace Timestamp

def isLeapYear (year : Int) : Bool :=
  year % 4 == 0 && (year % 100 != 0 || year % 400 == 0)

def daysInMonth (year : Int) (month : Nat) : Nat :=
  if month = 2 then if isLeapYear year then 29 else 28
  else if month = 4 ∨ month = 6 ∨ month = 9 ∨ month = 11 then 30
  else 31

/-- Whether the fields name a point in time. -/
def isValid (t : Timestamp) : Bool :=
  -262143 ≤ t.year && t.year ≤ 262142 && 1 ≤ t.month && t.month ≤ 12
    && 1 ≤ t.day && t.day ≤ daysInMonth t.year t.month
    && t.hour ≤ 23 && t.minute ≤ 59 && t.second ≤ 60 && t.nanosecond < 1000000000

/-- The date that lies `days` days after the first day of 1970. Days are counted in eras of 400 years that begin
on the first of March, so that the leap day is the last of its year. -/
def ofDays (days : Nat) : Timestamp :=
  let day := days + 719468
  let era := day / 146097
  let day := day % 146097
  let year := (day - day / 1460 + day / 36524 - day / 146096) / 365
  let day := day - (365 * year + year / 4 - year / 100)
  let month := (5 * day + 2) / 153
  let early := 10 ≤ month
  { year := ((era * 400 + year + if early then 1 else 0 : Nat) : Int)
    month := if early then month - 9 else month + 3
    day := day - (153 * month + 2) / 5 + 1 }

/-- The point in time that lies a number of nanoseconds after the start of 1970. -/
def ofNanoseconds (nanoseconds : Nat) : Timestamp :=
  let seconds := nanoseconds / 1000000000
  { ofDays (seconds / 86400) with
    hour := seconds / 3600 % 24
    minute := seconds / 60 % 60
    second := seconds % 60
    nanosecond := nanoseconds % 1000000000 }

/-- The same time of day one day earlier. -/
def previousDay (t : Timestamp) : Timestamp :=
  if 1 < t.day then { t with day := t.day - 1 }
  else if 1 < t.month then
    { t with month := t.month - 1, day := daysInMonth t.year (t.month - 1) }
  else { t with year := t.year - 1, month := 12, day := 31 }

/-- The same time of day one day later. -/
def nextDay (t : Timestamp) : Timestamp :=
  if t.day < daysInMonth t.year t.month then { t with day := t.day + 1 }
  else if t.month < 12 then { t with month := t.month + 1, day := 1 }
  else { t with year := t.year + 1, month := 1, day := 1 }

/-- The time that lies `minutes` earlier, for a shift of less than a day. -/
def earlierBy (minutes : Int) (t : Timestamp) : Timestamp :=
  let total := (t.hour * 60 + t.minute : Nat) - minutes
  if total < 0 then
    let total := (total + 1440).toNat
    { t.previousDay with hour := total / 60, minute := total % 60 }
  else if 1440 ≤ total then
    let total := (total - 1440).toNat
    { t.nextDay with hour := total / 60, minute := total % 60 }
  else { t with hour := total.toNat / 60, minute := total.toNat % 60 }

/-- Takes decimal digits off the front, at most `width`; `none` if there is none. -/
def takeDigits? (width : Nat) (text : List Char) : Option (Nat × List Char) := do
  let digits := (text.take width).takeWhile fun c => '0' ≤ c && c ≤ '9'
  if digits.isEmpty then none
  else return (← Text.readDigits? 10 0 digits, text.drop digits.length)

/-- Takes a field of at most two digits, behind blanks. -/
def takeField? (text : List Char) : Option (Nat × List Char) :=
  takeDigits? 2 (Text.trimStart text)

/-- Takes a separator with blanks on both sides. -/
def takeSeparator? (separator : Char) (text : List Char) : Option (List Char) :=
  match Text.trimStart text with
  | c :: rest => if c = separator then some (Text.trimStart rest) else none
  | [] => none

/-- Takes a year: up to four digits, or any number of digits behind a sign. -/
def takeYear? (text : List Char) : Option (Int × List Char) := do
  match Text.trimStart text with
  | '-' :: rest =>
    let (year, rest) ← takeDigits? rest.length rest
    return (-(year : Int), rest)
  | '+' :: rest =>
    let (year, rest) ← takeDigits? rest.length rest
    return ((year : Int), rest)
  | text =>
    let (year, rest) ← takeDigits? 4 text
    return ((year : Int), rest)

/-- Takes a fraction of a second in nanoseconds, zero if there is none; digits after the ninth are dropped. -/
def takeFraction? : List Char → Option (Nat × List Char)
  | '.' :: text => do
    let (value, rest) ← takeDigits? 9 text
    let digits := text.length - rest.length
    return (value * Nat.pow 10 (9 - digits), rest.dropWhile fun c => '0' ≤ c && c ≤ '9')
  | text => some (0, text)

def takeTwoDigits? : List Char → Option (Nat × List Char)
  | tens :: ones :: rest => do
    let value ← Text.readDigits? 10 0 [tens, ones]
    return (value, rest)
  | _ => none

/-- Takes the hours and minutes of an offset, with colons or blanks between them. -/
def takeHoursMinutes? (text : List Char) : Option (Nat × List Char) := do
  let (hours, rest) ← takeTwoDigits? text
  let (minutes, rest) ← takeTwoDigits? (rest.dropWhile fun c => c = ':' || Text.isBlank c)
  if hours ≤ 23 ∧ minutes ≤ 59 then return (hours * 60 + minutes, rest) else none

/-- Takes an offset from UTC in minutes: a zone letter or name for UTC itself, or a signed time. -/
def takeOffset? : List Char → Option (Int × List Char)
  | 'Z' :: rest => some (0, rest)
  | 'z' :: rest => some (0, rest)
  | '+' :: rest => do
    let (minutes, rest) ← takeHoursMinutes? rest
    return ((minutes : Int), rest)
  | '-' :: rest => do
    let (minutes, rest) ← takeHoursMinutes? rest
    return (-(minutes : Int), rest)
  | '\u2212' :: rest => do
    let (minutes, rest) ← takeHoursMinutes? rest
    return (-(minutes : Int), rest)
  | u :: t :: c :: rest =>
    if [u, t, c].map Char.toLower = ['u', 't', 'c'] then some (0, rest) else none
  | _ => none

def takeTimeMark? : List Char → Option (List Char)
  | 'T' :: rest => some rest
  | 't' :: rest => some rest
  | ' ' :: rest => some rest
  | _ => none

def parse? (text : String) : Option Timestamp := do
  let (year, rest) ← takeYear? text.toList
  let rest ← takeSeparator? '-' rest
  let (month, rest) ← takeField? rest
  let rest ← takeSeparator? '-' rest
  let (day, rest) ← takeField? rest
  let rest ← takeTimeMark? rest
  let (hour, rest) ← takeField? rest
  let rest ← takeSeparator? ':' rest
  let (minute, rest) ← takeField? rest
  let rest ← takeSeparator? ':' rest
  let (second, rest) ← takeField? rest
  let (nanosecond, rest) ← takeFraction? rest
  let (offset, rest) ← takeOffset? (Text.trimStart rest)
  let civil : Timestamp := { year, month, day, hour, minute, second, nanosecond }
  if civil.isValid && (Text.trimStart rest).isEmpty then
    let utc := civil.earlierBy offset
    if utc.isValid then some utc else none
  else none

/-- Decimal digits padded with zeros on the left up to `width`. -/
def padded (width value : Nat) : String :=
  let digits := Text.decimal value
  String.ofList (List.replicate (width - digits.length) '0') ++ digits

/-- A year: four digits, or a sign and at least four digits outside the range from 0 to 9999. -/
def yearText (year : Int) : String :=
  if 0 ≤ year ∧ year ≤ 9999 then padded 4 year.toNat
  else (if year < 0 then "-" else "+") ++ padded 4 year.natAbs

/-- The fraction of a second in as many digits as it needs, in steps of three. -/
def fractionText (nanosecond : Nat) : String :=
  if nanosecond = 0 then ""
  else if nanosecond % 1000000 = 0 then "." ++ padded 3 (nanosecond / 1000000)
  else if nanosecond % 1000 = 0 then "." ++ padded 6 (nanosecond / 1000)
  else "." ++ padded 9 nanosecond

def text (t : Timestamp) : String :=
  yearText t.year ++ "-" ++ padded 2 t.month ++ "-" ++ padded 2 t.day ++ "T"
    ++ padded 2 t.hour ++ ":" ++ padded 2 t.minute ++ ":" ++ padded 2 t.second
    ++ fractionText t.nanosecond ++ "Z"

end Timestamp

end Mos6502
