import Mathlib.Data.List.Basic
import Mathlib.Tactic.IntervalCases
import Mos6502.Json.Document
import Mos6502.Json.Parse

/-!
# Reading undoes the writing of JSON

A document is a list of tokens, and so is a value. The scanner finds the tokens of a written document, where the
layout adds nothing but blanks; the reader makes of them the value that the document stands for. Both go along the
document: what they do to its text or tokens is stated for any state that they can be in when it begins. The two ways to
write a document are layouts, so that one law of the scanner serves both.
-/

namespace Mos6502.Json

namespace Token

def feedAll? (scan : Scan) (text : List Char) : Option Scan :=
  text.foldlM feed? scan

@[simp]
theorem feedAll?_nil (scan : Scan) : feedAll? scan [] = some scan := rfl

@[simp]
theorem feedAll?_cons (scan : Scan) (c : Char) (text : List Char) :
    feedAll? scan (c :: text) = (feed? scan c).bind fun next => feedAll? next text := rfl

@[simp]
theorem feedAll?_append (scan : Scan) (first second : List Char) :
    feedAll? scan (first ++ second) = (feedAll? scan first).bind fun next => feedAll? next second :=
  List.foldlM_append

def feedText? (scan : Scan) (text : String) : Option Scan :=
  feedAll? scan text.toList

theorem feedText?_ofList (scan : Scan) (text : List Char) :
    feedText? scan (String.ofList text) = feedAll? scan text := by
  rw [feedText?, String.toList_ofList]

theorem feedText?_append (scan : Scan) (first second : String) :
    feedText? scan (first ++ second) =
      (feedText? scan first).bind fun next => feedText? next second := by
  rw [feedText?, String.toList_append, feedAll?_append]
  rfl

/-- Characters that can continue a number. -/
def ContinuesNumber (c : Char) : Prop :=
  (decimalDigit? c).isSome ∨ c = '.' ∨ c = 'e' ∨ c = 'E'

instance : DecidablePred ContinuesNumber :=
  fun c => inferInstanceAs (Decidable ((decimalDigit? c).isSome ∨ c = '.' ∨ c = 'e' ∨ c = 'E'))

/-- Tokens are complete up to a number that is still open: a character that cannot continue it, or the end of the
text, completes that as well. -/
structure Scan.Settles (scan : Scan) (tokens : List Token) : Prop where
  feed {c : Char} : ¬ContinuesNumber c → feed? scan c = start? tokens c
  finish : finish? scan = some tokens.reverse

theorem settles_idle (tokens : List Token) : Scan.Settles { tokens } tokens where
  feed := fun _ => rfl
  finish := rfl

theorem settles_number {tokens : List Token} {phase : NumberPhase} (value : Nat)
    (final : phase = .zero ∨ phase = .integer) :
    Scan.Settles { tokens, mode := .number phase value Bool.false }
      (.number (some value) :: tokens) where
  feed := by
    intro c other
    unfold ContinuesNumber at other
    push Not at other
    obtain ⟨noDigit, noPoint, noExponent, noCapital⟩ := other
    have none : decimalDigit? c = none := by simpa using noDigit
    have stops : continueNumber? phase value c = Option.none := by
      rcases final with rfl | rfl <;>
        simp [continueNumber?, none, noPoint, noExponent, noCapital]
    have complete : ofNumber? phase value Bool.false = some (.number (some value)) := by
      rcases final with rfl | rfl <;> rfl
    simp [feed?, stops, complete]
  finish := by
    rcases final with rfl | rfl <;> rfl

theorem feed?_number {tokens : List Token} {c : Char} {value digit : Nat}
    (digits : decimalDigit? c = some digit) :
    feed? { tokens, mode := .number .integer value Bool.false } c =
      some { tokens, mode := .number .integer (value * 10 + digit) Bool.false } := by
  simp [feed?, continueNumber?, digits]

theorem decimalDigit?_digitChar {digit : Nat} (small : digit < 10) :
    decimalDigit? digit.digitChar = some digit := by
  have all : ∀ digit < 10, decimalDigit? (Nat.digitChar digit) = some digit := by
    decide +kernel
  exact all digit small

theorem feed?_firstDigit (tokens : List Token) {digit : Nat} (small : digit < 10)
    (nonzero : digit ≠ 0) :
    feed? { tokens } digit.digitChar = some { tokens, mode := .number .integer digit Bool.false } := by
  interval_cases digit
  · contradiction
  all_goals rfl

/-- A positive number is read digit by digit. -/
theorem feedAll?_toDigits (tokens : List Token) (value : Nat) (positive : 0 < value) :
    feedAll? { tokens } (Nat.toDigits 10 value) =
      some { tokens, mode := .number .integer value Bool.false } := by
  induction value using Nat.strongRecOn with
  | ind value inductionHypothesis =>
    by_cases small : value < 10
    · rw [Nat.toDigits_of_lt_base small]
      simp [feed?_firstDigit tokens small (Nat.ne_of_gt positive)]
    · have large : 10 ≤ value := Nat.le_of_not_lt small
      have last : value % 10 < 10 := Nat.mod_lt value (by decide)
      rw [Nat.toDigits_of_base_le (by decide) large, feedAll?_append,
        inductionHypothesis (value / 10) (by omega) (by omega), Option.bind_some, feedAll?_cons,
        feed?_number (decimalDigit?_digitChar last), Option.bind_some, feedAll?_nil,
        Nat.div_add_mod']

theorem feedText?_decimal (tokens : List Token) (value : Nat) :
    ∃ scan, feedText? { tokens } (Text.decimal value) = some scan ∧
      scan.Settles (.number (some value) :: tokens) := by
  rw [Text.decimal, feedText?_ofList]
  rcases Nat.eq_zero_or_pos value with rfl | positive
  · exact ⟨_, rfl, settles_number 0 (.inl rfl)⟩
  · exact ⟨_, feedAll?_toDigits tokens value positive, settles_number value (.inr rfl)⟩

/-- The piece that reading makes of a written character. -/
def pieceOf (c : Char) : Piece :=
  if c ≠ '\x08' ∧ c ≠ '\x0c' ∧ c ≠ '\n' ∧ c ≠ '\r' ∧ c ≠ '\t' ∧ c.toNat < 0x20 then .unit c.toNat
  else .char c

theorem spell?_pieces (text out : List Char) :
    spell? out (text.map pieceOf) = some (out.reverse ++ text) := by
  induction text generalizing out with
  | nil => simp [spell?]
  | cons c text inductionHypothesis =>
    rw [List.map_cons, pieceOf]
    split
    next control =>
      have basic : c.toNat < 0xD800 ∨ 0xE000 ≤ c.toNat := by omega
      unfold spell?
      simp [basic, inductionHypothesis]
    next =>
      rw [spell?, inductionHypothesis]
      simp

theorem hexDigit?_escapeDigits {code : Nat} (control : code < 0x20) :
    ∃ high low, escapeDigits code = [high, low] ∧ hexDigit? high = some (code / 16) ∧
      hexDigit? low = some (code % 16) := by
  have all : ∀ code < 0x20,
      hexDigit? (Text.hexDigit ((UInt8.ofNat code).toNat / 16)).toLower = some (code / 16) ∧
        hexDigit? (Text.hexDigit ((UInt8.ofNat code).toNat % 16)).toLower = some (code % 16) := by
    decide +kernel
  refine ⟨_, _, ?_, all code control⟩
  rw [escapeDigits, Text.hexByte, String.toList_ofList]

theorem feed?_code (tokens : List Token) (pieces : List Piece) {left value digit : Nat} {c : Char}
    (hex : hexDigit? c = some digit) :
    feed? { tokens, mode := .string (.code (left + 2) value) pieces } c =
      some { tokens, mode := .string (.code (left + 1) (value * 16 + digit)) pieces } := by
  simp [feed?, continueString?, hex]

theorem feed?_lastCode (tokens : List Token) (pieces : List Piece) {value digit : Nat} {c : Char}
    (hex : hexDigit? c = some digit) :
    feed? { tokens, mode := .string (.code 1 value) pieces } c =
      some { tokens, mode := .string .plain (.unit (value * 16 + digit) :: pieces) } := by
  simp [feed?, continueString?, hex]

/-- A written character is read as its piece. -/
theorem feedAll?_escapeChar (tokens : List Token) (pieces : List Piece) (c : Char) :
    feedAll? { tokens, mode := .string .plain pieces } (escapeChar c) =
      some { tokens, mode := .string .plain (pieceOf c :: pieces) } := by
  unfold escapeChar
  split
  next quoted => subst quoted; rfl
  next notQuote =>
  split
  next backslash => subst backslash; rfl
  next notBackslash =>
  split
  next special => subst special; rfl
  next notBackspace =>
  split
  next special => subst special; rfl
  next notFormFeed =>
  split
  next special => subst special; rfl
  next notLineFeed =>
  split
  next special => subst special; rfl
  next notReturn =>
  split
  next special => subst special; rfl
  next notTab =>
  split
  next control =>
    obtain ⟨high, low, digits, highDigit, lowDigit⟩ := hexDigit?_escapeDigits control
    have zero : hexDigit? '0' = some 0 := by
      decide +kernel
    have code : c.toNat / 16 * 16 + c.toNat % 16 = c.toNat := Nat.div_add_mod' c.toNat 16
    have opened : feedAll? { tokens, mode := .string .plain pieces } ['\\', 'u'] =
        some { tokens, mode := .string (.code 4 0) pieces } := rfl
    have unit : pieceOf c = .unit c.toNat := by
      simp [pieceOf, notBackspace, notFormFeed, notLineFeed, notReturn, notTab, control]
    change feedAll? _ (['\\', 'u'] ++ '0' :: '0' :: escapeDigits c.toNat) = _
    rw [feedAll?_append, opened, digits]
    simp [feed?_code tokens pieces zero, feed?_code tokens pieces highDigit,
      feed?_lastCode tokens pieces lowDigit, code, unit]
  next printed =>
    simp [feed?, continueString?, pieceOf, notQuote, notBackslash, printed]

theorem feedAll?_escaped (tokens : List Token) (pieces : List Piece) (text : List Char) :
    feedAll? { tokens, mode := .string .plain pieces } (text.flatMap escapeChar) =
      some { tokens, mode := .string .plain ((text.map pieceOf).reverse ++ pieces) } := by
  induction text generalizing pieces with
  | nil => rfl
  | cons c text inductionHypothesis =>
    rw [List.flatMap_cons, feedAll?_append, feedAll?_escapeChar, Option.bind_some,
      inductionHypothesis]
    simp

/-- A written string is read as one token. -/
theorem feedText?_quote (tokens : List Token) (text : String) :
    feedText? { tokens } (quote text) = some { tokens := .string (some text) :: tokens } := by
  have opened : feed? { tokens } '"' = some { tokens, mode := .string .plain [] } := rfl
  rw [quote, feedText?_ofList, List.cons_append, feedAll?_cons, opened, Option.bind_some,
    feedAll?_append, feedAll?_escaped, Option.bind_some]
  simp [feed?, continueString?, spell?_pieces]

theorem feedText?_colon (tokens : List Token) :
    feedText? { tokens } ":" = some { tokens := .colon :: tokens } := rfl

/-- A character that is a token by itself completes a number in front of it. -/
theorem Scan.Settles.mark {scan : Scan} {tokens : List Token} (settles : scan.Settles tokens) {c : Char}
    {token : Token} (stops : ¬ContinuesNumber c)
    (starts : start? tokens c = some { tokens := token :: tokens }) :
    feedAll? scan [c] = some { tokens := token :: tokens } := by
  rw [feedAll?_cons, settles.feed stops, starts]
  rfl

theorem feedText?_comma {scan : Scan} {tokens : List Token} (settles : scan.Settles tokens) :
    feedText? scan "," = some { tokens := .comma :: tokens } :=
  settles.mark (by decide) rfl

theorem feedText?_endArray {scan : Scan} {tokens : List Token} (settles : scan.Settles tokens) :
    feedText? scan "]" = some { tokens := .endArray :: tokens } :=
  settles.mark (by decide) rfl

theorem feedText?_endObject {scan : Scan} {tokens : List Token} (settles : scan.Settles tokens) :
    feedText? scan "\x7d" = some { tokens := .endObject :: tokens } :=
  settles.mark (by decide) rfl

/-- Nothing but characters that may stand between tokens. -/
def Blank (text : String) : Prop :=
  ∀ c ∈ text.toList, isSpace c

theorem not_continuesNumber_of_isSpace {c : Char} (space : isSpace c = Bool.true) : ¬ContinuesNumber c := by
  simp only [isSpace, decide_eq_true_eq] at space
  rcases space with rfl | rfl | rfl | rfl <;> decide

/-- Between tokens blanks are passed over. -/
theorem feedText?_blank {text : String} (blank : Blank text) (tokens : List Token) :
    feedText? { tokens } text = some { tokens } := by
  unfold Blank at blank
  unfold feedText?
  generalize text.toList = characters at blank ⊢
  induction characters with
  | nil => rfl
  | cons c rest inductionHypothesis =>
    obtain ⟨space, others⟩ := List.forall_mem_cons.mp blank
    have passed : feed? { tokens } c = some { tokens } := if_pos space
    rw [feedAll?_cons, passed, Option.bind_some, inductionHypothesis others]

/-- Blanks complete a number in front of them. -/
theorem Scan.Settles.blank {scan : Scan} {tokens : List Token} (settles : scan.Settles tokens)
    {text : String} (blank : Blank text) :
    ∃ next, feedText? scan text = some next ∧ next.Settles tokens := by
  have idle := feedText?_blank blank tokens
  unfold Blank at blank
  unfold feedText? at idle ⊢
  cases characters : text.toList with
  | nil => exact ⟨scan, rfl, settles⟩
  | cons c rest =>
    rw [characters] at blank idle
    obtain ⟨space, -⟩ := List.forall_mem_cons.mp blank
    have ended : feed? scan c = feed? { tokens } c :=
      settles.feed (not_continuesNumber_of_isSpace space)
    refine ⟨{ tokens }, ?_, settles_idle tokens⟩
    rwa [feedAll?_cons, ended, ← feedAll?_cons]

end Token

namespace Document

mutual

/-- The tokens that spell a document. -/
def tokens : Document → List Token
  | null => [.null]
  | bool value => [if value then .true else .false]
  | natural value => [.number (some value)]
  | text value => [.string (some value)]
  | array items => .beginArray :: itemTokens items ++ [.endArray]
  | object members => .beginObject :: memberTokens members ++ [.endObject]

/-- The tokens of items with commas between them. -/
def itemTokens : List Document → List Token
  | [] => []
  | [item] => item.tokens
  | item :: rest => item.tokens ++ .comma :: itemTokens rest

/-- The tokens of members with commas between them. -/
def memberTokens : List (String × Document) → List Token
  | [] => []
  | [(name, value)] => .string (some name) :: .colon :: value.tokens
  | (name, value) :: rest =>
    .string (some name) :: .colon :: value.tokens ++ .comma :: memberTokens rest

end

mutual

/-- The value that reading makes of a document. -/
def value : Document → Value
  | null => .null
  | bool value => .bool value
  | natural value => .number (some value)
  | text value => .string (some value)
  | array items => .array (itemValues items)
  | object members => .object (memberValues members)

def itemValues : List Document → List Value
  | [] => []
  | item :: rest => item.value :: itemValues rest

def memberValues : List (String × Document) → List (Option String × Value)
  | [] => []
  | (name, value) :: rest => (some name, value.value) :: memberValues rest

end

open Token

/-- The blanks of a written document: in front of what stands at a depth, and behind the colon of a member. -/
structure Layout where
  gap : Nat → String
  colonGap : String
  blank_gap (depth : Nat) : Blank (gap depth)
  blank_colonGap : Blank colonGap

namespace Layout

/-- No blanks at all. -/
def dense : Layout where
  gap := fun _ => ""
  colonGap := ""
  blank_gap := fun _ => List.forall_mem_nil _
  blank_colonGap := List.forall_mem_nil _

theorem blank_newline (depth : Nat) : Blank (newline depth) := by
  unfold Blank newline
  rw [String.toList_ofList, List.forall_mem_cons]
  refine ⟨rfl, ?_⟩
  intro c indentation
  rw [List.eq_of_mem_replicate indentation]
  rfl

/-- A line for each item, indented by its depth. -/
def lines : Layout where
  gap := newline
  colonGap := " "
  blank_gap := blank_newline
  blank_colonGap := List.forall_mem_singleton.mpr rfl

end Layout

section

variable (layout : Layout)

mutual

/-- The text of a document in a layout. -/
def laidOut (depth : Nat) : Document → String
  | null => "null"
  | bool value => if value then "true" else "false"
  | natural value => Text.decimal value
  | text value => quote value
  | array [] => "[]"
  | array (item :: rest) =>
    "[" ++ layout.gap (depth + 1) ++ laidOutItems (depth + 1) (item :: rest) ++ layout.gap depth ++ "]"
  | object [] => "\x7b\x7d"
  | object (first :: rest) =>
    "\x7b" ++ layout.gap (depth + 1) ++ laidOutMembers (depth + 1) (first :: rest) ++ layout.gap depth
      ++ "\x7d"

def laidOutItems (depth : Nat) : List Document → String
  | [] => ""
  | [item] => item.laidOut depth
  | item :: rest => item.laidOut depth ++ "," ++ layout.gap depth ++ laidOutItems depth rest

def laidOutMembers (depth : Nat) : List (String × Document) → String
  | [] => ""
  | [(name, value)] => quote name ++ ":" ++ layout.colonGap ++ value.laidOut depth
  | (name, value) :: rest =>
    quote name ++ ":" ++ layout.colonGap ++ value.laidOut depth ++ "," ++ layout.gap depth
      ++ laidOutMembers depth rest

end

end

namespace Layout

@[simp]
theorem append_gap_dense (text : String) (depth : Nat) : text ++ dense.gap depth = text :=
  String.append_empty

@[simp]
theorem append_colonGap_dense (text : String) : text ++ dense.colonGap = text :=
  String.append_empty

@[simp]
theorem gap_lines (depth : Nat) : lines.gap depth = newline depth := rfl

@[simp]
theorem append_colonGap_lines (text : String) : text ++ ":" ++ lines.colonGap = text ++ ": " :=
  String.append_assoc

end Layout

mutual

theorem laidOut_dense : ∀ (document : Document) (depth : Nat),
    document.laidOut .dense depth = document.compact
  | null, _ | bool _, _ | natural _, _ | text _, _ | array [], _ | object [], _ => rfl
  | array (item :: rest), depth => by
    simp [laidOut, compact, laidOutItems_dense (item :: rest)]
  | object (first :: rest), depth => by
    simp [laidOut, compact, laidOutMembers_dense (first :: rest)]

theorem laidOutItems_dense : ∀ (items : List Document) (depth : Nat),
    laidOutItems .dense depth items = compactItems items
  | [], _ => rfl
  | [item], depth => by
    simp [laidOutItems, compactItems, laidOut_dense item]
  | item :: next :: rest, depth => by
    simp [laidOutItems, compactItems, laidOut_dense item, laidOutItems_dense (next :: rest)]

theorem laidOutMembers_dense : ∀ (members : List (String × Document)) (depth : Nat),
    laidOutMembers .dense depth members = compactMembers members
  | [], _ => rfl
  | [(name, value)], depth => by
    simp [laidOutMembers, compactMembers, laidOut_dense value]
  | (name, value) :: next :: rest, depth => by
    simp [laidOutMembers, compactMembers, laidOut_dense value, laidOutMembers_dense (next :: rest)]

end

mutual

theorem laidOut_lines : ∀ (document : Document) (depth : Nat),
    document.laidOut .lines depth = document.pretty depth
  | null, _ | bool _, _ | natural _, _ | text _, _ | array [], _ | object [], _ => rfl
  | array (item :: rest), depth => by
    simp [laidOut, pretty, laidOutItems_lines (item :: rest)]
  | object (first :: rest), depth => by
    simp [laidOut, pretty, laidOutMembers_lines (first :: rest)]

theorem laidOutItems_lines : ∀ (items : List Document) (depth : Nat),
    laidOutItems .lines depth items = prettyItems depth items
  | [], _ => rfl
  | [item], depth => by
    simp [laidOutItems, prettyItems, laidOut_lines item]
  | item :: next :: rest, depth => by
    simp [laidOutItems, prettyItems, laidOut_lines item, laidOutItems_lines (next :: rest)]

theorem laidOutMembers_lines : ∀ (members : List (String × Document)) (depth : Nat),
    laidOutMembers .lines depth members = prettyMembers depth members
  | [], _ => rfl
  | [(name, value)], depth => by
    simp [laidOutMembers, prettyMembers, laidOut_lines value]
  | (name, value) :: next :: rest, depth => by
    simp [laidOutMembers, prettyMembers, laidOut_lines value, laidOutMembers_lines (next :: rest)]

end

section

variable (layout : Layout)

mutual

/-- Scanning a written document gives its tokens, the last of which may be an open number. -/
theorem feedText?_laidOut : ∀ (document : Document) (depth : Nat) (before : List Token),
    ∃ scan, feedText? { tokens := before } (document.laidOut layout depth) = some scan ∧
      scan.Settles (document.tokens.reverse ++ before)
  | null, _, before => by
    rw [laidOut]
    exact ⟨_, rfl, settles_idle _⟩
  | bool value, _, before => by
    rw [laidOut]
    cases value with
    | false => exact ⟨_, rfl, settles_idle _⟩
    | true => exact ⟨_, rfl, settles_idle _⟩
  | natural value, _, before => by
    rw [laidOut]
    exact feedText?_decimal before value
  | text value, _, before => by
    rw [laidOut]
    exact ⟨_, feedText?_quote before value, settles_idle _⟩
  | array [], _, before => by
    rw [laidOut]
    exact ⟨_, rfl, settles_idle _⟩
  | array (item :: rest), depth, before => by
    have opened : feedText? { tokens := before } "[" =
        some { tokens := .beginArray :: before } := rfl
    obtain ⟨scan, read, settles⟩ :=
      feedText?_laidOutItems (item :: rest) (List.cons_ne_nil item rest) (depth + 1)
        (.beginArray :: before)
    obtain ⟨last, passed, settled⟩ := settles.blank (layout.blank_gap depth)
    refine ⟨{ tokens := .endArray :: ((itemTokens (item :: rest)).reverse ++ .beginArray :: before) }, ?_, ?_⟩
    · simp only [laidOut, feedText?_append, opened, Option.bind_some,
        feedText?_blank (layout.blank_gap (depth + 1)), read, passed, feedText?_endArray settled]
    · simpa [tokens] using settles_idle _
  | object [], _, before => by
    rw [laidOut]
    exact ⟨_, rfl, settles_idle _⟩
  | object (first :: rest), depth, before => by
    have opened : feedText? { tokens := before } "\x7b" =
        some { tokens := .beginObject :: before } := rfl
    obtain ⟨scan, read, settles⟩ :=
      feedText?_laidOutMembers (first :: rest) (List.cons_ne_nil first rest) (depth + 1)
        (.beginObject :: before)
    obtain ⟨last, passed, settled⟩ := settles.blank (layout.blank_gap depth)
    refine ⟨{ tokens := .endObject :: ((memberTokens (first :: rest)).reverse ++ .beginObject :: before) }, ?_, ?_⟩
    · simp only [laidOut, feedText?_append, opened, Option.bind_some,
        feedText?_blank (layout.blank_gap (depth + 1)), read, passed, feedText?_endObject settled]
    · simpa [tokens] using settles_idle _

theorem feedText?_laidOutItems : ∀ (items : List Document) (_ : items ≠ []) (depth : Nat)
    (before : List Token),
    ∃ scan, feedText? { tokens := before } (laidOutItems layout depth items) = some scan ∧
      scan.Settles ((itemTokens items).reverse ++ before)
  | [], filled, _, _ => absurd rfl filled
  | [item], _, depth, before => by
    rw [laidOutItems]
    exact feedText?_laidOut item depth before
  | item :: next :: rest, _, depth, before => by
    obtain ⟨scan, read, settles⟩ := feedText?_laidOut item depth before
    obtain ⟨last, readRest, settlesRest⟩ :=
      feedText?_laidOutItems (next :: rest) (List.cons_ne_nil next rest) depth
        (.comma :: (item.tokens.reverse ++ before))
    refine ⟨last, ?_, ?_⟩
    · simp only [laidOutItems, feedText?_append, read, Option.bind_some, feedText?_comma settles,
        feedText?_blank (layout.blank_gap depth), readRest]
    · simpa [itemTokens] using settlesRest

theorem feedText?_laidOutMembers : ∀ (members : List (String × Document)) (_ : members ≠ [])
    (depth : Nat) (before : List Token),
    ∃ scan, feedText? { tokens := before } (laidOutMembers layout depth members) = some scan ∧
      scan.Settles ((memberTokens members).reverse ++ before)
  | [], filled, _, _ => absurd rfl filled
  | [(name, value)], _, depth, before => by
    obtain ⟨scan, read, settles⟩ :=
      feedText?_laidOut value depth (.colon :: .string (some name) :: before)
    refine ⟨scan, ?_, ?_⟩
    · simp only [laidOutMembers, feedText?_append, feedText?_quote, Option.bind_some,
        feedText?_colon, feedText?_blank layout.blank_colonGap, read]
    · simpa [memberTokens] using settles
  | (name, value) :: next :: rest, _, depth, before => by
    obtain ⟨scan, read, settles⟩ :=
      feedText?_laidOut value depth (.colon :: .string (some name) :: before)
    obtain ⟨last, readRest, settlesRest⟩ :=
      feedText?_laidOutMembers (next :: rest) (List.cons_ne_nil next rest) depth
        (.comma :: (value.tokens.reverse ++ .colon :: .string (some name) :: before))
    refine ⟨last, ?_, ?_⟩
    · simp only [laidOutMembers, feedText?_append, feedText?_quote, Option.bind_some,
        feedText?_colon, feedText?_blank layout.blank_colonGap, read, feedText?_comma settles,
        feedText?_blank (layout.blank_gap depth), readRest]
    · simpa [memberTokens] using settlesRest

end

theorem scan?_laidOut (document : Document) (depth : Nat) :
    scan? (document.laidOut layout depth).toList = some document.tokens := by
  obtain ⟨scan, read, settles⟩ := feedText?_laidOut layout document depth []
  have finished := settles.finish
  rw [List.append_nil, List.reverse_reverse] at finished
  change ((document.laidOut layout depth).toList.foldlM feed? {}).bind finish? = _
  change (document.laidOut layout depth).toList.foldlM feed? {} = _ at read
  rw [read]
  exact finished

end

def feedTokens? (reading : Reading) (tokens : List Token) : Option Reading :=
  tokens.foldlM Reading.feed? reading

@[simp]
theorem feedTokens?_nil (reading : Reading) : feedTokens? reading [] = some reading := rfl

@[simp]
theorem feedTokens?_cons (reading : Reading) (token : Token) (tokens : List Token) :
    feedTokens? reading (token :: tokens) =
      (reading.feed? token).bind fun next => feedTokens? next tokens := rfl

@[simp]
theorem feedTokens?_append (reading : Reading) (first second : List Token) :
    feedTokens? reading (first ++ second) =
      (feedTokens? reading first).bind fun next => feedTokens? next second :=
  List.foldlM_append

/-- At the place of a first item a value is read as anywhere else. -/
theorem feedTokens?_placed (document : Document) (frames : List Frame) {expected : Expectation}
    (placed : expected = .firstItem ∨ expected = .value) :
    feedTokens? (.inside frames expected) document.tokens =
      feedTokens? (.inside frames .value) document.tokens := by
  rcases placed with rfl | rfl
  case inr => rfl
  have starts : ∃ token rest, document.tokens = token :: rest ∧ token ≠ .endArray := by
    cases document with
    | bool value => cases value <;> exact ⟨_, _, rfl, Token.noConfusion⟩
    | null | natural | text | array | object => exact ⟨_, _, rfl, Token.noConfusion⟩
  obtain ⟨token, rest, spelled, other⟩ := starts
  rw [spelled, feedTokens?_cons, feedTokens?_cons]
  cases token with
  | endArray => exact absurd rfl other
  | beginObject | endObject | beginArray | colon | comma | null | true | false | number | string =>
    rfl

theorem feedTokens?_name (members : List (Option String × Value)) (frames : List Frame)
    {expected : Expectation} (named : expected = .firstName ∨ expected = .name) (name : String)
    (rest : List Token) :
    feedTokens? (.inside (.object members :: frames) expected)
        (.string (some name) :: .colon :: rest) =
      feedTokens? (.inside (.member members (some name) :: frames) .value) rest := by
  rcases named with rfl | rfl <;> rfl

mutual

/-- The tokens of a document are read as its value. -/
theorem feedTokens?_tokens : ∀ (document : Document) (frames : List Frame),
    feedTokens? (.inside frames .value) document.tokens = acceptValue document.value frames
  | null, frames => by
    simp [tokens, value, Reading.feed?, beginValue]
  | bool Bool.false, frames => by
    simp [tokens, value, Reading.feed?, beginValue]
  | bool Bool.true, frames => by
    simp [tokens, value, Reading.feed?, beginValue]
  | natural value, frames => by
    simp [tokens, Document.value, Reading.feed?, beginValue]
  | text value, frames => by
    simp [tokens, Document.value, Reading.feed?, beginValue]
  | array [], frames => by
    simp [tokens, value, Reading.feed?, beginValue, itemTokens, itemValues]
  | array (item :: rest), frames => by
    have opened : Reading.feed? (.inside frames .value) .beginArray =
        some (.inside (.array [] :: frames) .firstItem) := rfl
    have read := feedTokens?_itemTokens (item :: rest) (List.cons_ne_nil item rest) [] frames
      (.inl rfl)
    rw [tokens, feedTokens?_append, feedTokens?_cons, opened, Option.bind_some, read,
      List.append_nil]
    simp [Reading.feed?, value]
  | object [], frames => by
    simp [tokens, value, Reading.feed?, beginValue, memberTokens, memberValues]
  | object (first :: rest), frames => by
    have opened : Reading.feed? (.inside frames .value) .beginObject =
        some (.inside (.object [] :: frames) .firstName) := rfl
    have read := feedTokens?_memberTokens (first :: rest) (List.cons_ne_nil first rest) [] frames
      (.inl rfl)
    rw [tokens, feedTokens?_append, feedTokens?_cons, opened, Option.bind_some, read,
      List.append_nil]
    simp [Reading.feed?, value]

theorem feedTokens?_itemTokens : ∀ (items : List Document) (_ : items ≠ [])
    (before : List Value) (frames : List Frame) {expected : Expectation}
    (_ : expected = .firstItem ∨ expected = .value),
    feedTokens? (.inside (.array before :: frames) expected) (itemTokens items) =
      some (.inside (.array ((itemValues items).reverse ++ before) :: frames) .separator)
  | [], filled, _, _, _, _ => absurd rfl filled
  | [item], _, before, frames, _, placed => by
    rw [itemTokens, feedTokens?_placed item _ placed, feedTokens?_tokens item]
    rfl
  | item :: next :: rest, _, before, frames, _, placed => by
    have read := feedTokens?_itemTokens (next :: rest) (List.cons_ne_nil next rest)
      (item.value :: before) frames (.inr rfl)
    have separated : Reading.feed? (.inside (.array (item.value :: before) :: frames) .separator)
        .comma = some (.inside (.array (item.value :: before) :: frames) .value) := rfl
    rw [itemTokens, feedTokens?_append, feedTokens?_placed item _ placed, feedTokens?_tokens item,
      acceptValue, Option.bind_some, feedTokens?_cons, separated, Option.bind_some, read]
    · simp [itemValues]
    · exact List.cons_ne_nil next rest

theorem feedTokens?_memberTokens : ∀ (members : List (String × Document)) (_ : members ≠ [])
    (before : List (Option String × Value)) (frames : List Frame) {expected : Expectation}
    (_ : expected = .firstName ∨ expected = .name),
    feedTokens? (.inside (.object before :: frames) expected) (memberTokens members) =
      some (.inside (.object ((memberValues members).reverse ++ before) :: frames) .separator)
  | [], filled, _, _, _, _ => absurd rfl filled
  | [(name, value)], _, before, frames, _, named => by
    rw [memberTokens, feedTokens?_name before frames named, feedTokens?_tokens value]
    rfl
  | (name, value) :: next :: rest, _, before, frames, _, named => by
    have read := feedTokens?_memberTokens (next :: rest) (List.cons_ne_nil next rest)
      ((some name, value.value) :: before) frames (.inr rfl)
    have separated : Reading.feed?
        (.inside (.object ((some name, value.value) :: before) :: frames) .separator) .comma =
          some (.inside (.object ((some name, value.value) :: before) :: frames) .name) := rfl
    rw [memberTokens, List.cons_append, List.cons_append, feedTokens?_name before frames named,
      feedTokens?_append, feedTokens?_tokens value, acceptValue, Option.bind_some, feedTokens?_cons,
      separated, Option.bind_some, read]
    · simp [memberValues]
    · exact List.cons_ne_nil next rest

end

/-- Reading undoes writing, whatever the layout. -/
theorem parse?_laidOut (layout : Layout) (document : Document) (depth : Nat) :
    parse? (document.laidOut layout depth) = some document.value := by
  have read := feedTokens?_tokens document []
  change document.tokens.foldlM Reading.feed? (.inside [] .value) = some (.finished document.value)
    at read
  change (scan? (document.laidOut layout depth).toList).bind ofTokens? = _
  rw [scan?_laidOut, Option.bind_some]
  change (document.tokens.foldlM Reading.feed? (.inside [] .value)).bind _ = _
  rw [read]
  rfl

theorem parse?_compact (document : Document) : parse? document.compact = some document.value := by
  rw [← laidOut_dense document 0]
  exact parse?_laidOut .dense document 0

theorem parse?_pretty (document : Document) (depth : Nat) :
    parse? (document.pretty depth) = some document.value := by
  rw [← laidOut_lines document depth]
  exact parse?_laidOut .lines document depth

end Document

end Mos6502.Json
