import Mos6502.Label.Line
import Mos6502.Proofs.Text

/-!
# Lines of label files

An entry is read from its line with whatever blanks around its three words, in either of the two forms, with the
digits of the address in either case behind dollar signs and `C:`. And whatever line an entry is read from, its name is
a word.
-/

namespace Mos6502

open Text

/-- An address as label files give it: any number of dollar signs, maybe `C:`, and digits. -/
structure AddressField where
  dollars : Nat := 0
  banked : Bool := false
  digits : List HexDigit
  digits_ne_nil : digits ≠ []
  small : hexValue digits ≤ 0xFFFF

namespace AddressField

def text (field : AddressField) : List Char :=
  List.replicate field.dollars '$' ++
    ((if field.banked then ['C', ':'] else []) ++ field.digits.map HexDigit.char)

def addr (field : AddressField) : UInt16 :=
  UInt16.ofNat (hexValue field.digits)

theorem char_ne {c : Char} (other : digitValue? c = none) (digit : HexDigit) : digit.char ≠ c := by
  intro same
  have value := digit.digitValue?_char
  rw [same, other] at value
  cases value

theorem dropWhile_text (field : AddressField) :
    field.text.dropWhile (· == '$') =
      (if field.banked then ['C', ':'] else []) ++ field.digits.map HexDigit.char := by
  have dollars : ∀ c ∈ List.replicate field.dollars '$', (c == '$') = true := by
    intro c member
    rw [List.eq_of_mem_replicate member]
    rfl
  rw [text, List.dropWhile_append_of_pos dollars]
  cases field.banked with
  | true => rfl
  | false =>
    obtain ⟨digit, digits, written⟩ := List.exists_cons_of_ne_nil field.digits_ne_nil
    have first : (digit.char == '$') = false := beq_eq_false_iff_ne.mpr (char_ne rfl digit)
    rw [written]
    exact List.dropWhile_cons_of_neg (ne_true_of_eq_false first)

theorem readHex?_text (field : AddressField) :
    LabelLine.readHex? field.text = some (hexValue field.digits) := by
  have bounded : hexValue field.digits < bound32 := by
    have small := field.small
    unfold bound32
    omega
  have read := readNumeral?_hex field.digits_ne_nil bounded
  unfold LabelLine.readHex?
  rw [field.dropWhile_text]
  cases field.banked with
  | true => exact read
  | false =>
    dsimp only
    split
    next rest written =>
      -- No digit is a colon.
      have colon : ':' ∈ field.digits.map HexDigit.char := by
        change field.digits.map HexDigit.char = _ at written
        rw [written]
        simp
      obtain ⟨digit, -, same⟩ := List.mem_map.mp colon
      exact absurd same (char_ne rfl digit)
    next rest plain => exact read

theorem readAddress_text (field : AddressField) :
    LabelLine.readAddress field.text = .ok field.addr := by
  unfold LabelLine.readAddress
  rw [field.readHex?_text]
  exact if_pos field.small

theorem isWord_text (field : AddressField) : IsWord field.text where
  ne_nil := by
    have digits : field.digits.map HexDigit.char ≠ [] := mt List.map_eq_nil_iff.mp field.digits_ne_nil
    unfold text
    simp [digits]
  printed c member := by
    rcases List.mem_append.mp member with dollar | behind
    · rw [List.eq_of_mem_replicate dollar]
      rfl
    · rcases List.mem_append.mp behind with mark | digit
      · have marks : IsWord ['C', ':'] := by decide
        split at mark
        · exact marks.printed c mark
        · cases mark
      · obtain ⟨hex, -, rfl⟩ := List.mem_map.mp digit
        exact hex.isBlank_char

end AddressField

/-- A line with an entry, in either form: `al 0600 .name` with a dot, or `0 0600 name` without. -/
structure EntryLine where
  dotted : Bool
  lead : List Char := []
  gap : List Char := [' ']
  field : AddressField
  otherGap : List Char := [' ']
  name : List Char
  trail : List Char := []
  isGap_lead : IsGap lead
  isGap_gap : IsGap gap
  gap_ne_nil : gap ≠ []
  isGap_otherGap : IsGap otherGap
  otherGap_ne_nil : otherGap ≠ []
  isWord_name : IsWord name
  isGap_trail : IsGap trail

namespace EntryLine

def head (entry : EntryLine) : List Char :=
  if entry.dotted then ['a', 'l'] else ['0']

/-- The name with the dot that belongs to the form. -/
def last (entry : EntryLine) : List Char :=
  if entry.dotted then '.' :: entry.name else entry.name

def text (entry : EntryLine) : String :=
  String.ofList (entry.lead ++ (entry.head ++ ((entry.gap ++ (entry.field.text ++ entry.otherGap)) ++
    (entry.last ++ entry.trail))))

/-- The address and the name that the line is there for. -/
def entry (entry : EntryLine) : UInt16 × String :=
  (entry.field.addr, String.ofList entry.name)

theorem isWord_head (entry : EntryLine) : IsWord entry.head := by
  unfold head
  split
  · decide
  · decide

theorem isWord_last (entry : EntryLine) : IsWord entry.last := by
  unfold last
  split
  · exact ⟨List.cons_ne_nil _ _, List.forall_mem_cons.mpr ⟨rfl, entry.isWord_name.printed⟩⟩
  · exact entry.isWord_name

theorem ofFields_eq (entry : EntryLine) :
    LabelLine.ofFields entry.head entry.field.text entry.last =
      .ok (.entry entry.field.addr (String.ofList entry.name)) := by
  have named : entry.name.isEmpty = false := List.isEmpty_eq_false_iff.mpr entry.isWord_name.ne_nil
  unfold LabelLine.ofFields head last
  rw [entry.field.readAddress_text]
  cases entry.dotted with
  | true =>
    change (if entry.name.isEmpty = true then _ else _) = _
    rw [named]
    rfl
  | false => rfl

theorem fields_eq (entry : EntryLine) :
    fields (entry.head ++ ((entry.gap ++ (entry.field.text ++ entry.otherGap)) ++ entry.last)) =
      [entry.head, entry.field.text, entry.last] := by
  simp only [List.append_assoc]
  rw [fields_word_gap entry.isWord_head entry.isGap_gap entry.gap_ne_nil,
    fields_word_gap entry.field.isWord_text entry.isGap_otherGap entry.otherGap_ne_nil,
    fields_word entry.isWord_last]

end EntryLine

namespace LabelLine

/-- The words of a line decide, unless it is empty or a comment. -/
theorem parse_of_trim {line : String} {c : Char} {rest : List Char}
    (trimmed : trim line.toList = c :: rest) (noHash : c ≠ '#') (noSemicolon : c ≠ ';') :
    parse line =
      match fields (c :: rest) with
      | [first, second, third] => ofFields first second third
      | words => .error (.fieldCount words.length) := by
  unfold parse
  rw [trimmed]
  split
  next empty => cases empty
  next hash => exact absurd (List.cons.inj hash).1 noHash
  next semicolon => exact absurd (List.cons.inj semicolon).1 noSemicolon
  next text => rfl

/-- The entry that a line holds, if it holds one. -/
def entryOf? (line : String) : Option (UInt16 × String) :=
  match parse line with
  | .ok (.entry addr name) => some (addr, name)
  | _ => none

theorem parse_of_entryOf? {line : String} {addr : UInt16} {name : String}
    (held : entryOf? line = some (addr, name)) : parse line = .ok (.entry addr name) := by
  unfold entryOf? at held
  split at held
  next found =>
    cases held
    exact found
  next => cases held

theorem isWord_of_ofFields {first second third : List Char} (isWord : IsWord third) {addr : UInt16}
    {name : String} (read : ofFields first second third = .ok (.entry addr name)) :
    IsWord name.toList := by
  unfold ofFields at read
  cases address : readAddress second with
  | error error =>
    rw [address] at read
    split at read
    · cases read
    · split at read <;> cases read
  | ok value =>
    rw [address] at read
    dsimp only [bind, Except.bind] at read
    split at read
    next dotted =>
      split at read
      next rest =>
        split at read
        next empty => cases read
        next filled =>
          cases read
          rw [String.toList_ofList]
          have printed : ∀ c ∈ rest, isBlank c = false :=
            fun c member => isWord.printed c (List.mem_cons_of_mem _ member)
          exact ⟨mt List.isEmpty_iff.mpr filled, printed⟩
      next other => cases read
    next paged =>
      split at read
      next malformed => cases read
      next page valid =>
        split at read
        next zero =>
          cases read
          rwa [String.toList_ofList]
        next banked => cases read

/-- The name of an entry is a word, whatever the line. -/
theorem isWord_of_entryOf? {line : String} {addr : UInt16} {name : String}
    (held : entryOf? line = some (addr, name)) : IsWord name.toList := by
  have read := parse_of_entryOf? held
  unfold parse at read
  split at read
  next empty => cases read
  next hash => cases read
  next semicolon => cases read
  next =>
    split at read
    next first second third words =>
      have member : third ∈ fields (trim line.toList) := by
        rw [words]
        simp
      exact isWord_of_ofFields (isWord_of_mem_fields member) read
    next => cases read

end LabelLine

/-- An entry is read from its line. -/
theorem EntryLine.parse_text (entry : EntryLine) :
    LabelLine.parse entry.text = .ok (.entry entry.field.addr (String.ofList entry.name)) := by
  have trimmed : trim entry.text.toList =
      entry.head ++ ((entry.gap ++ (entry.field.text ++ entry.otherGap)) ++ entry.last) := by
    rw [text, String.toList_ofList]
    exact trim_words entry.isGap_lead entry.isWord_head entry.isWord_last entry.isGap_trail
  have words := entry.fields_eq
  obtain ⟨c, rest, begins, noHash, noSemicolon⟩ :
      ∃ c rest, entry.head = c :: rest ∧ c ≠ '#' ∧ c ≠ ';' := by
    unfold head
    split
    · exact ⟨'a', ['l'], rfl, by decide, by decide⟩
    · exact ⟨'0', [], rfl, by decide, by decide⟩
  rw [begins, List.cons_append] at trimmed words
  rw [LabelLine.parse_of_trim trimmed noHash noSemicolon, words, ← begins]
  exact entry.ofFields_eq

end Mos6502
